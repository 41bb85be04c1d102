import Scaffold.Hub.Standard
import Scaffold.Proofs.Text.Word

/-!
# What a hub does not take for a resource

A probe that finds a resource finds it in a line: a module between quotes
(`Probe.exists_quotes_of_reexports`), a key at the beginning of a line with a colon behind it
(`Probe.exists_key_of_keysObject`, `Probe.exists_key_of_keysName`).  Where keys are words, the key
of a line is the word that it begins with, so no line is taken for another resource.
-/

namespace Scaffold

open CodePoint

namespace Text

theorem exists_of_anyUpTo {stop : CodePoint → Bool} {p : Option CodePoint → Text → Bool}
    {before : Option CodePoint} {t : Text} (h : anyUpTo stop p before t = true) :
    ∃ s u, t = s ++ u ∧ (∀ c ∈ s, stop c = false) ∧ p (s.getLast?.or before) u = true := by
  induction t generalizing before with
  | nil => exact ⟨[], [], rfl, by simp, by simpa [anyUpTo] using h⟩
  | cons c t ih =>
    rw [anyUpTo, Bool.or_eq_true, Bool.and_eq_true] at h
    rcases h with h | ⟨hc, h⟩
    · exact ⟨[], c :: t, rfl, by simp, by simpa using h⟩
    · obtain ⟨s, u, rfl, hs, hp⟩ := ih h
      refine ⟨c :: s, u, rfl, List.forall_mem_cons.2 ⟨by simpa using hc, hs⟩, ?_⟩
      rw [List.getLast?_cons]
      cases hl : s.getLast? with
      | none => simpa [hl] using hp
      | some d => simpa [hl] using hp

theorem eq_of_dropWord? {w t rest : Text} {before : Option CodePoint}
    (h : dropWord? w before t = some rest) : t = w ++ rest := by
  rw [dropWord?] at h
  split at h
  · cases h
  · split at h
    · cases h
    · rename_i r hr
      split at h
      · rw [← Option.some.inj h]
        exact dropStart?_eq_some_iff.1 hr
      · cases h

theorem exists_of_anyLine_unlines {ls : List Text} {p : Text → Bool} (hl : ∀ l ∈ ls, l.IsInline)
    (h : anyLine p (unlines ls) = true) :
    p [] = true ∨ ∃ l ∈ ls, ∃ rest, p (l ++ newline :: rest) = true := by
  induction ls with
  | nil => exact .inl (by simpa [anyLine, anyLineFrom] using h)
  | cons l ls ih =>
    rw [List.forall_mem_cons] at hl
    rw [unlines_cons, anyLine_inline_append hl.1, Bool.or_eq_true] at h
    rcases h with h | h
    · exact .inr ⟨l, by simp, _, h⟩
    · rcases ih hl.2 h with h | ⟨l', hl', rest, h⟩
      · exact .inl h
      · exact .inr ⟨l', by simp [hl'], rest, h⟩

theorem stripLeft_suffix (t : Text) : t.stripLeft <:+ t := List.dropWhile_suffix _

/-- A beginning that stays on one line is a beginning of that line. -/
theorem prefix_of_inline {w l rest : Text} (hw : w.IsInline)
    (h : w <+: l ++ newline :: rest) : w <+: l := by
  rcases List.prefix_or_prefix_of_prefix h (List.prefix_append l _) with h' | ⟨u, rfl⟩
  · exact h'
  · cases u with
    | nil => simp
    | cons c u =>
      rw [List.prefix_append_right_inj, List.cons_prefix_cons] at h
      exact absurd (by simp [h.1]) hw

end Text

namespace Probe

open Text

/-- One of the two quotes. -/
def IsQuote (c : CodePoint) : Prop := c = .scalar '\'' ∨ c = .scalar '"'

theorem exists_of_quotesModule {module t : Text} (h : quotesModule module t = true) :
    ∃ q q' rest, IsQuote q ∧ IsQuote q' ∧ t = q :: ("./" ++ module) ++ q' :: rest := by
  cases t with
  | nil => cases h
  | cons q t =>
    rw [quotesModule, Bool.and_eq_true] at h
    obtain ⟨hq, h⟩ := h
    cases hd : dropStart? ("./" ++ module) t with
    | none => simp [hd] at h
    | some u =>
      cases u with
      | nil => simp [hd] at h
      | cons q' rest =>
        refine ⟨q, q', rest, by simpa [IsQuote] using hq, ?_, ?_⟩
        · simpa [hd, IsQuote] using h
        · rw [dropStart?_eq_some_iff.1 hd, List.cons_append]

/-- A module that is re-exported stands between quotes. -/
theorem exists_quotes_of_reexports {module t : Text} (h : reexports module t = true) :
    ∃ q q', IsQuote q ∧ IsQuote q' ∧ q :: ("./" ++ module ++ [q']) <:+: t := by
  obtain ⟨above, line, -, rfl, hline⟩ := anyLine_eq_true.1 h
  cases hd : dropWord? "export" none (dropIndent line) with
  | none => simp [hd] at hline
  | some rest =>
    simp only [hd] at hline
    obtain ⟨s, u, rfl, -, hfrom⟩ := exists_of_anyUpTo hline
    rw [fromModule, Bool.and_eq_true] at hfrom
    cases hf : dropStart? "from" u with
    | none => simp [hf] at hfrom
    | some v =>
      simp only [hf] at hfrom
      obtain ⟨q, q', w, hq, hq', hv⟩ := exists_of_quotesModule hfrom.2
      refine ⟨q, q', hq, hq', ?_⟩
      have h₁ : q :: ("./" ++ module ++ [q']) <:+: v.stripLeft := by
        rw [hv]
        exact ⟨[], w, by simp⟩
      have h₂ : v <:+ u := ⟨_, (dropStart?_eq_some_iff.1 hf).symm⟩
      have h₃ : u <:+ dropIndent line :=
        ⟨"export" ++ s, by rw [eq_of_dropWord? hd, List.append_assoc]⟩
      have h₄ : dropIndent line <:+ above ++ line :=
        (List.dropWhile_suffix _).trans (List.suffix_append _ _)
      exact h₁.trans (((stripLeft_suffix v).trans (h₂.trans (h₃.trans h₄))).isInfix)

/-! ### Keys -/

/-- The word that a line begins with behind its indent, if a colon may follow. -/
def keyOf? (l : Text) : Option Text :=
  let u := stripLeft l
  let after := stripLeft (u.dropWhile isWordLetter)
  if after = [] ∨ after.head? = some (.scalar ':') then some (u.takeWhile isWordLetter) else none

theorem stripLeft_append_of_blank {s t : Text} (h : ∀ c ∈ s, c.isBlank = true) :
    stripLeft (s ++ t) = stripLeft t :=
  List.dropWhile_append_of_pos h

theorem stripLeft_append {s : Text} (t : Text) (h : stripLeft s ≠ []) :
    stripLeft (s ++ t) = stripLeft s ++ t := by
  rw [stripLeft] at h
  rw [stripLeft, stripLeft, List.dropWhile_append, if_neg (by simpa using h)]

theorem stripLeft_word_append {w : Text} (hw : w.IsWord) (t : Text) :
    stripLeft (w ++ t) = w ++ t := by
  obtain ⟨c, u, rfl, hc⟩ := hw.exists_cons
  rw [stripLeft, List.cons_append, List.dropWhile_cons_of_neg]
  simpa using isBlank_of_isWordLetter hc

/-- A word with a colon behind it, blanks apart, is the key of its line. -/
theorem keyOf?_eq {indent key l u v rest : Text} (hi : ∀ c ∈ indent, c.isBlank = true)
    (hk : key.IsWord) (hp : indent ++ key <+: l)
    (hl : l ++ newline :: rest = indent ++ (key ++ u)) (hu : stripLeft u = ":" ++ v) :
    keyOf? l = some key := by
  obtain ⟨x, rfl⟩ := hp
  obtain rfl : x ++ newline :: rest = u := by simpa using hl
  have hx : EndsWord x := by
    intro c hc
    obtain ⟨y, rfl⟩ : ∃ y, x = c :: y := by
      cases x with
      | nil => cases hc
      | cons d y => exact ⟨y, by rw [Option.mem_some_iff.1 hc]⟩
    by_cases hb : c.isBlank = true
    · rw [Bool.eq_false_iff]
      intro hletter
      rw [isBlank_of_isWordLetter hletter] at hb
      cases hb
    · rw [stripLeft, List.cons_append, List.dropWhile_cons_of_neg hb] at hu
      have : c = .scalar ':' := (List.cons.inj hu).1
      rw [this]
      decide
  have hafter : stripLeft x = [] ∨ (stripLeft x).head? = some (.scalar ':') := by
    by_cases hn : stripLeft x = []
    · exact .inl hn
    · rw [stripLeft_append _ hn] at hu
      obtain ⟨c, y, hy⟩ := List.exists_cons_of_ne_nil hn
      rw [hy] at hu
      exact .inr (by rw [hy, (List.cons.inj hu).1]; rfl)
  have hstrip : stripLeft (indent ++ key ++ x) = key ++ x := by
    rw [List.append_assoc, stripLeft_append_of_blank hi, stripLeft_word_append hk]
  have htake := takeWhile_append_of_endsWord hk hx
  have hdrop : (key ++ x).dropWhile isWordLetter = x := by
    have := List.takeWhile_append_dropWhile (p := isWordLetter) (l := key ++ x)
    rw [htake] at this
    exact List.append_cancel_left this
  rw [keyOf?, hstrip, hdrop]
  simp only [hafter, if_true, htake]

variable {ls : List Text} {key name : Text}

theorem exists_of_afterColon? {t rest : Text} (h : afterColon? t = some rest) :
    ∃ u, stripLeft t = ":" ++ u := by
  obtain ⟨u, hu, -⟩ := Option.map_eq_some_iff.1 h
  exact ⟨u, dropStart?_eq_some_iff.1 hu⟩

/-- A line that keys an object begins with its key behind two blanks. -/
theorem exists_key_of_keysObject (hl : ∀ l ∈ ls, l.IsInline) (hk : key.IsWord)
    (h : keysObject key (unlines ls) = true) :
    ∃ l ∈ ls, ("  " : Text) ++ key <+: l ∧ keyOf? l = some key := by
  rcases exists_of_anyLine_unlines hl h with h | ⟨l, hmem, rest, h⟩
  · cases h
  · cases hd : dropStart? ("  " ++ key) (l ++ newline :: rest) with
    | none => simp [hd] at h
    | some u =>
      simp only [hd] at h
      obtain ⟨v, hv, -⟩ := Option.any_eq_true _ _ |>.1 h
      obtain ⟨w, hw⟩ := exists_of_afterColon? hv
      have he := dropStart?_eq_some_iff.1 hd
      have hinline : IsInline (("  " : Text) ++ key) :=
        isInline_append.2 ⟨by decide, hk.isPlainLine.1⟩
      have hp : ("  " : Text) ++ key <+: l := prefix_of_inline hinline ⟨u, he.symm⟩
      exact ⟨l, hmem, hp, keyOf?_eq (by decide) hk hp (by rw [he, List.append_assoc]) hw⟩

/-- A line that keys a name begins with its key behind blanks, and the name follows. -/
theorem exists_key_of_keysName (hl : ∀ l ∈ ls, l.IsInline) (hk : key.IsWord)
    (h : keysName key name (unlines ls) = true) :
    ∃ l ∈ ls, keyOf? l = some key ∧
      ∃ rest indent u v w, l ++ newline :: rest = indent ++ (key ++ u) ∧
      (∀ c ∈ indent, c.isBlank = true) ∧ stripLeft u = ":" ++ (v ++ (name ++ w)) ∧
      ∀ c ∈ v, c.isBlank = true := by
  rcases exists_of_anyLine_unlines hl h with h | ⟨l, hmem, rest, h⟩
  · obtain ⟨c, w, rfl, -⟩ := hk.exists_cons
    cases h
  · obtain ⟨indent, u, hl, hi, h⟩ := exists_of_anyUpTo h
    have hblank : ∀ c ∈ indent, c.isBlank = true ∧ c ≠ newline := fun c hc => by
      simpa [endsIndent, CodePoint.isLineFeed] using hi c hc
    cases hd : dropStart? key u with
    | none => simp [hd] at h
    | some u' =>
      simp only [hd] at h
      cases hc : dropStart? ":" (stripLeft u') with
      | none => simp [hc] at h
      | some value =>
        simp only [hc, namesWord] at h
        obtain ⟨v, x, rfl, hv, h⟩ := exists_of_anyUpTo h
        cases hn : dropStart? name x with
        | none => simp [hn] at h
        | some w =>
          rw [dropStart?_eq_some_iff] at hd hc hn
          have hinline : IsInline (indent ++ key) :=
            isInline_append.2 ⟨fun hm => (hblank _ hm).2 rfl, hk.isPlainLine.1⟩
          have hp : indent ++ key <+: l :=
            prefix_of_inline hinline ⟨u', by rw [hl, hd, List.append_assoc]⟩
          rw [hd] at hl
          rw [hn] at hc
          exact ⟨l, hmem, keyOf?_eq (fun c hc => (hblank c hc).1) hk hp hl hc, rest, indent, u', v,
            w, hl, fun c hc => (hblank c hc).1, hc, fun c hc => by simpa using hv c hc⟩

end Probe

end Scaffold
