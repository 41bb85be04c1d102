import Mathlib.Data.List.TakeWhile
import Scaffold.Proofs.Hub.Growth

/-!
# Words

A word is made of ASCII letters, digits and underscores (`Text.IsWord`).  What ends a word shows
where it ends: a text begins with one word at most that something else follows
(`Text.eq_of_word_append`), and what stands between two delimiters is found between the same two
(`Text.eq_of_infix_delimited`).  A text has a word in it where no word goes on on either side
(`Text.HasWord`), so words do not reach from one part of a text into the next
(`Text.hasWord_append`).
-/

namespace Scaffold

open CodePoint

namespace CodePoint

/-- One of the letters, digits and the underscore of ASCII. -/
def isWordLetter (c : CodePoint) : Bool := c.isAsciiLetter || c.isAsciiDigit || c = .scalar '_'

theorem toNat_lt_of_isWordLetter {c : Char} (h : isWordLetter c = true) : c.toNat < 128 := by
  have hle : ∀ {m : UInt32}, m.toNat < 128 → c.val ≤ m → c.toNat < 128 := fun hm hc =>
    Nat.lt_of_le_of_lt (UInt32.le_iff_toNat_le.1 hc) hm
  rw [isWordLetter, Bool.or_eq_true, Bool.or_eq_true] at h
  rcases h with (h | h) | h
  · have hletter : (c.isUpper || c.isLower) = true := h
    rw [Bool.or_eq_true] at hletter
    rcases hletter with h | h
    · have hupper : decide (c.val ≥ 'A'.val ∧ c.val ≤ 'Z'.val) = true := h
      exact hle (by decide) (of_decide_eq_true hupper).2
    · have hlower : (decide (c.val ≥ 'a'.val) && decide (c.val ≤ 'z'.val)) = true := h
      rw [Bool.and_eq_true] at hlower
      exact hle (by decide) (of_decide_eq_true hlower.2)
  · have hdigit : (decide (c.val ≥ '0'.val) && decide (c.val ≤ '9'.val)) = true := h
    rw [Bool.and_eq_true] at hdigit
    exact hle (by decide) (of_decide_eq_true hdigit.2)
  · obtain rfl : c = '_' := by simpa using h
    decide

/-- What holds of each letter of a word, by looking at all of ASCII. -/
theorem of_isWordLetter {P : CodePoint → Prop}
    (hall : ∀ n : Fin 128, isWordLetter (Char.ofNat n) = true → P (Char.ofNat n)) {c : CodePoint}
    (h : c.isWordLetter = true) : P c := by
  cases c with
  | surrogate u => simp [isWordLetter, isAsciiLetter, isAsciiDigit, satisfies] at h
  | scalar c =>
    have hc := hall ⟨c.toNat, toNat_lt_of_isWordLetter h⟩
    simp only [Char.ofNat_toNat] at hc
    exact hc h

theorem isWordPart_of_isWordLetter {c : CodePoint} (h : c.isWordLetter = true) :
    c.isWordPart = true :=
  of_isWordLetter (P := fun c => c.isWordPart = true) (by decide +kernel) h

theorem isBlank_of_isWordLetter {c : CodePoint} (h : c.isWordLetter = true) : c.isBlank = false :=
  of_isWordLetter (P := fun c => c.isBlank = false) (by decide +kernel) h

end CodePoint

namespace Text

/-- The text is a word. -/
def IsWord (t : Text) : Prop := t ≠ [] ∧ ∀ c ∈ t, c.isWordLetter = true

instance (t : Text) : Decidable t.IsWord :=
  inferInstanceAs (Decidable (t ≠ [] ∧ ∀ c ∈ t, c.isWordLetter = true))

variable {w v s t : Text} {c : CodePoint}

theorem IsWord.not_mem (h : w.IsWord) (hc : c.isWordLetter = false) : c ∉ w := fun hm => by
  rw [h.2 c hm] at hc
  cases hc

theorem IsWord.isPlainLine (h : w.IsWord) : w.IsPlainLine :=
  ⟨h.not_mem (by decide), h.not_mem (by decide)⟩

theorem IsWord.append (h : w.IsWord) (h' : v.IsWord) : (w ++ v).IsWord :=
  ⟨by simp [h.1], fun c hc => (List.mem_append.1 hc).elim (h.2 c) (h'.2 c)⟩

theorem IsWord.exists_cons (h : w.IsWord) : ∃ c u, w = c :: u ∧ c.isWordLetter = true := by
  cases w with
  | nil => exact absurd rfl h.1
  | cons c u => exact ⟨c, u, rfl, h.2 c (by simp)⟩

theorem IsWord.exists_concat (h : w.IsWord) : ∃ u c, w = u ++ [c] ∧ c.isWordLetter = true := by
  obtain ⟨u, c, rfl⟩ := (List.eq_nil_or_concat' w).resolve_left h.1
  exact ⟨u, c, rfl, h.2 c (by simp)⟩

/-- The text begins and ends with a part of a word. -/
def IsWhole (t : Text) : Prop :=
  t.head?.any isWordPart = true ∧ t.getLast?.any isWordPart = true

instance (t : Text) : Decidable t.IsWhole :=
  inferInstanceAs (Decidable (t.head?.any isWordPart = true ∧ t.getLast?.any isWordPart = true))

theorem IsWord.isWhole (h : w.IsWord) : w.IsWhole := by
  constructor
  · obtain ⟨c, u, rfl, hc⟩ := h.exists_cons
    exact isWordPart_of_isWordLetter hc
  · obtain ⟨u, c, rfl, hc⟩ := h.exists_concat
    rw [List.getLast?_concat]
    exact isWordPart_of_isWordLetter hc

/-- No letter comes next. -/
def EndsWord (t : Text) : Prop := ∀ c ∈ t.head?, c.isWordLetter = false

theorem takeWhile_append_of_endsWord (hw : w.IsWord) (ht : t.EndsWord) :
    (w ++ t).takeWhile isWordLetter = w := by
  rw [List.takeWhile_append_of_pos hw.2]
  cases t with
  | nil => simp
  | cons c t => rw [List.takeWhile_cons_of_neg (by simp [ht c rfl]), List.append_nil]

/-- A text begins with one word that something else follows. -/
theorem eq_of_word_append (hw : w.IsWord) (hv : v.IsWord) (hs : s.EndsWord) (ht : t.EndsWord)
    (h : w ++ s = v ++ t) : w = v ∧ s = t := by
  have hwv : w = v := by
    rw [← takeWhile_append_of_endsWord hw hs, h, takeWhile_append_of_endsWord hv ht]
  subst hwv
  exact ⟨rfl, List.append_cancel_left h⟩

/-- The first delimiter of a text stands behind its beginning without one. -/
theorem append_cons_eq_append_cons {Q : CodePoint → Prop} {p a x y : Text} {q b : CodePoint}
    (ha : ∀ c ∈ a, ¬ Q c) (hq : Q q) (h : p ++ q :: x = a ++ b :: y) :
    (p = a ∧ q = b ∧ x = y) ∨ ∃ u, p = a ++ b :: u ∧ u ++ q :: x = y := by
  rcases List.append_eq_append_iff.1 h with ⟨u, rfl, hu⟩ | ⟨u, rfl, hu⟩
  · cases u with
    | nil =>
      rw [List.nil_append, List.cons.injEq] at hu
      exact .inl ⟨by simp, hu.1, hu.2⟩
    | cons d u =>
      rw [List.cons_append, List.cons.injEq] at hu
      exact absurd (hu.1 ▸ hq) (ha d (by simp))
  · cases u with
    | nil =>
      rw [List.nil_append, List.cons.injEq] at hu
      exact .inl ⟨by simp, hu.1.symm, hu.2.symm⟩
    | cons d u =>
      rw [List.cons_append, List.cons.injEq] at hu
      exact .inr ⟨u, by rw [hu.1], hu.2.symm⟩

/-- What stands between the only two delimiters of a text. -/
theorem eq_of_infix_delimited {Q : CodePoint → Prop} {a b m n : Text} {q q' d d' : CodePoint}
    (ha : ∀ c ∈ a, ¬ Q c) (hb : ∀ c ∈ b, ¬ Q c) (hm : ∀ c ∈ m, ¬ Q c) (hn : ∀ c ∈ n, ¬ Q c)
    (hd' : Q d') (hq : Q q) (hq' : Q q') (h : q :: (n ++ [q']) <:+: a ++ d :: (m ++ d' :: b)) :
    n = m := by
  obtain ⟨front, back, h⟩ := h
  rw [List.append_assoc, List.cons_append, List.append_assoc] at h
  have hlast : ∀ {u x : Text}, u ++ q :: x ≠ b := fun {u x} h => hb q (by simp [← h]) hq
  rcases append_cons_eq_append_cons ha hq h with ⟨-, -, h⟩ | ⟨u, -, h⟩
  · -- the first delimiter is the first: so is the second
    rw [List.singleton_append] at h
    rcases append_cons_eq_append_cons hm hq' h with ⟨h, -, -⟩ | ⟨u, h, -⟩
    · exact h
    · exact absurd hd' (hn d' (by simp [h]))
  · rcases append_cons_eq_append_cons hm hq h with ⟨-, -, h⟩ | ⟨u, -, h⟩
    · exact absurd hq' (hb q' (by simp [← h]))
    · exact absurd h hlast

/-- The text has `w` in it where no word goes on on either side. -/
def HasWord (t w : Text) : Prop :=
  ∃ x y : Text, t = x ++ (w ++ y) ∧ x.getLast?.any isWordPart = false ∧
    y.head?.any isWordPart = false

theorem not_hasWord_nil (hw : w.IsWord) : ¬ HasWord [] w := by
  rintro ⟨x, y, h, -, -⟩
  exact hw.1 (List.append_eq_nil_iff.1 (List.append_eq_nil_iff.1 h.symm).2).1

/-- A word does not reach beyond a code point that is in no word. -/
theorem hasWord_append_cons (hw : w.IsWord) (hc : c.isWordPart = false) :
    HasWord (s ++ c :: t) w ↔ s.HasWord w ∨ t.HasWord w := by
  have hnot : c ∉ w := fun hm => by
    rw [isWordPart_of_isWordLetter (hw.2 c hm)] at hc
    cases hc
  constructor
  · rintro ⟨x, y, h, hx, hy⟩
    rcases List.append_eq_append_iff.1 h with ⟨r, rfl, hr⟩ | ⟨r, rfl, hr⟩
    · -- the word begins behind `s`, and so behind the code point
      cases r with
      | nil =>
        obtain ⟨d, v, rfl, -⟩ := hw.exists_cons
        exact absurd (by rw [(List.cons.inj hr).1]; exact List.mem_cons_self) hnot
      | cons d r =>
        refine .inr ⟨r, y, (List.cons.inj hr).2, ?_, hy⟩
        rw [List.getLast?_append_cons] at hx
        cases r with
        | nil => rfl
        | cons e r => rwa [List.getLast?_cons_cons] at hx
    · rcases List.append_eq_append_iff.1 hr with ⟨q, rfl, rfl⟩ | ⟨q, rfl, hq⟩
      · refine .inl ⟨x, q, rfl, hx, ?_⟩
        cases q with
        | nil => rfl
        | cons d q => exact hy
      · cases q with
        | nil => exact .inl ⟨x, [], by simp, hx, rfl⟩
        | cons d q =>
          obtain rfl := (List.cons.inj hq).1
          exact absurd (by simp) hnot
  · rintro (⟨x, y, rfl, hx, hy⟩ | ⟨x, y, rfl, hx, hy⟩)
    · refine ⟨x, y ++ c :: t, by simp, hx, ?_⟩
      cases y with
      | nil => exact hc
      | cons d y => exact hy
    · refine ⟨s ++ c :: x, y, by simp, ?_, hy⟩
      rw [List.getLast?_append_cons]
      cases x with
      | nil => exact hc
      | cons d x => rwa [List.getLast?_cons_cons]

theorem hasWord_append_of_not (hw : w.IsWord) (hs : ∀ c ∈ s, c.isWordPart = false) :
    HasWord (s ++ t) w ↔ t.HasWord w := by
  induction s with
  | nil => rfl
  | cons c s ih =>
    obtain ⟨hc, hs⟩ := List.forall_mem_cons.1 hs
    have hcons := hasWord_append_cons (s := []) (t := s ++ t) hw hc
    rw [List.cons_append, ← List.nil_append (c :: _), hcons, ih hs]
    exact or_iff_right (not_hasWord_nil hw)

/-- Words are on either side of something that is in no word. -/
theorem hasWord_append (hw : w.IsWord) {b : Text} (hne : b ≠ [])
    (hb : ∀ c ∈ b, c.isWordPart = false) :
    HasWord (s ++ (b ++ t)) w ↔ s.HasWord w ∨ t.HasWord w := by
  obtain ⟨c, b, rfl⟩ := List.exists_cons_of_ne_nil hne
  obtain ⟨hc, hb⟩ := List.forall_mem_cons.1 hb
  rw [List.cons_append, hasWord_append_cons hw hc, hasWord_append_of_not hw hb]

/-- A word in front of the first delimiter stands in what the delimiter ends. -/
theorem hasWord_of_delimited {x y u : Text} {d : CodePoint} (hd : d ∉ x ++ w)
    (h : t ++ d :: u = x ++ (w ++ y)) (hx : x.getLast?.any isWordPart = false)
    (hy : y.head?.any isWordPart = false) : t.HasWord w := by
  rw [← List.append_assoc x] at h
  rcases List.append_eq_append_iff.1 h with ⟨r, hr, hrest⟩ | ⟨r, rfl, rfl⟩
  · cases r with
    | nil =>
      rw [List.append_nil] at hr
      exact ⟨x, [], by rw [List.append_nil, hr], hx, rfl⟩
    | cons c r =>
      obtain rfl := (List.cons.inj hrest).1
      exact absurd (by rw [hr]; simp) hd
  · refine ⟨x, r, List.append_assoc _ _ _, hx, ?_⟩
    cases r with
    | nil => rfl
    | cons c r => exact hy

end Text

end Scaffold
