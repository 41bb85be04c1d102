import Mathlib.Data.List.Basic
import Scaffold.Text.Lines

/-!
# The lines of a text

A text is *closed* when a line may begin behind it (`Text.IsClosed`): it is empty, or a line feed
ends it.  Cutting into lines is additive behind a closed text (`Text.lines_append`), every line but
the last is closed, and a text written line by line has just these lines (`Text.lines_unlines`).

`Text.anyLine` looks at the beginnings of lines, and so at every closed beginning of a text
(`Text.anyLine_eq_true`).
-/

namespace Scaffold

/-- The line feed. -/
abbrev CodePoint.newline : CodePoint := .scalar '\n'

namespace Text

open CodePoint

/-- A line may begin behind the text. -/
def IsClosed (t : Text) : Prop := ∀ c ∈ t.getLast?, c = newline

/-- The text stays on one line. -/
def IsInline (t : Text) : Prop := newline ∉ t

instance (t : Text) : Decidable t.IsInline := inferInstanceAs (Decidable (newline ∉ t))

instance (t : Text) : Decidable t.IsClosed :=
  inferInstanceAs (Decidable (∀ c ∈ t.getLast?, c = newline))

@[simp] theorem isLineFeed_eq_true {c : CodePoint} : c.isLineFeed = true ↔ c = newline := by
  simp [CodePoint.isLineFeed]

/-! ### Literals

To the kernel a string literal is `String.ofList` of its characters.  With these lemmas it looks at
the characters, where it would otherwise have to decode the literal first.
-/

theorem ofString_ofList (cs : List Char) : ofString (String.ofList cs) = cs.map .scalar := by
  rw [ofString, String.toList_ofList]

theorem of_ofList (P : Text → Prop) {cs : List Char} (h : P (cs.map .scalar)) :
    P (ofString (String.ofList cs)) := by
  rwa [ofString_ofList]

theorem mem_ofList {c : Char} {cs : List Char} (h : c ∈ cs) :
    .scalar c ∈ ofString (String.ofList cs) := by
  rw [ofString_ofList]
  exact List.mem_map_of_mem h

theorem not_mem_ofList {c : Char} {cs : List Char} (h : c ∉ cs) :
    .scalar c ∉ ofString (String.ofList cs) := by
  rw [ofString_ofList]
  intro hm
  obtain ⟨d, hd, he⟩ := List.mem_map.1 hm
  exact h (CodePoint.scalar.inj he ▸ hd)

theorem head?_ofList_ne {c : Char} {cs : List Char} (h : cs.head? ≠ some c) :
    (ofString (String.ofList cs)).head? ≠ some (.scalar c) := by
  rw [ofString_ofList, List.head?_map]
  intro hc
  obtain ⟨d, hd, he⟩ := Option.map_eq_some_iff.1 hc
  exact h (CodePoint.scalar.inj he ▸ hd)

/-! ### Closed texts -/

@[simp] theorem isClosed_nil : IsClosed [] := by simp [IsClosed]

@[simp] theorem isClosed_concat {t : Text} {c : CodePoint} :
    IsClosed (t ++ [c]) ↔ c = newline := by
  simp [IsClosed]

theorem isClosed_append {s t : Text} (ht : t.IsClosed) (h : t = [] → s.IsClosed) :
    (s ++ t).IsClosed := by
  rcases List.eq_nil_or_concat' t with rfl | ⟨u, c, rfl⟩
  · simpa using h rfl
  · rw [← List.append_assoc]
    exact isClosed_concat.2 (isClosed_concat.1 ht)

theorem IsClosed.append {s t : Text} (hs : s.IsClosed) (ht : t.IsClosed) : (s ++ t).IsClosed :=
  isClosed_append ht fun _ => hs

theorem IsClosed.of_append {s t : Text} (h : (s ++ t).IsClosed) (ht : t ≠ []) : t.IsClosed := by
  obtain ⟨u, c, rfl⟩ := (List.eq_nil_or_concat' t).resolve_left ht
  rw [← List.append_assoc] at h
  exact isClosed_concat.2 (isClosed_concat.1 h)

theorem IsClosed.eq_concat {t : Text} (h : t.IsClosed) (ht : t ≠ []) :
    ∃ s, t = s ++ [newline] := by
  obtain ⟨s, c, rfl⟩ := (List.eq_nil_or_concat' t).resolve_left ht
  exact ⟨s, by rw [isClosed_concat.1 h]⟩

theorem isClosed_cons {c : CodePoint} {t : Text} :
    IsClosed (c :: t) ↔ t.IsClosed ∧ (t = [] → c = newline) := by
  rcases List.eq_nil_or_concat' t with rfl | ⟨u, d, rfl⟩
  · simp [IsClosed]
  · rw [← List.cons_append, isClosed_concat, isClosed_concat]
    simp

theorem isEnded_eq_true {t : Text} : t.isEnded = true ↔ t ≠ [] ∧ t.IsClosed := by
  rcases List.eq_nil_or_concat' t with rfl | ⟨u, c, rfl⟩
  · simp [isEnded]
  · simp [isEnded]

theorem isInline_append {s t : Text} : (s ++ t).IsInline ↔ s.IsInline ∧ t.IsInline := by
  simp [IsInline]

theorem isInline_cons {c : CodePoint} {t : Text} :
    IsInline (c :: t) ↔ c ≠ newline ∧ t.IsInline := by
  simp [IsInline, eq_comm]

@[simp] theorem isInline_nil : IsInline [] := by simp [IsInline]

/-! ### Cutting into lines -/

theorem lines_append {s t : Text} (hs : s.IsClosed) : lines (s ++ t) = lines s ++ lines t := by
  induction s with
  | nil => rfl
  | cons c s ih =>
    obtain ⟨hs', hc⟩ := isClosed_cons.1 hs
    rw [List.cons_append, lines, lines, ih hs']
    split
    · rfl
    · rename_i h
      have hne : s ≠ [] := fun he => h (by simp [hc he])
      cases hl : lines s with
      | nil =>
        have := flatten_lines s
        rw [hl] at this
        exact absurd this.symm hne
      | cons line rest => rfl

theorem lines_inline_append {s t : Text} (hs : s.IsInline) :
    lines (s ++ newline :: t) = (s ++ [newline]) :: lines t := by
  induction s with
  | nil => simp [lines]
  | cons c s ih =>
    obtain ⟨hc, hs⟩ := isInline_cons.1 hs
    rw [List.cons_append, lines, ih hs]
    simp [hc]

theorem lines_of_isInline {t : Text} (ht : t.IsInline) (hne : t ≠ []) : lines t = [t] := by
  induction t with
  | nil => exact absurd rfl hne
  | cons c t ih =>
    obtain ⟨hc, ht⟩ := isInline_cons.1 ht
    rw [lines]
    by_cases h : t = []
    · subst h; simp [hc, lines]
    · simp [hc, ih ht h]

/-- Induction line by line: a text is empty, or a last line, or a line with its line feed and the
text behind it. -/
theorem inductionOnLines {P : Text → Prop} (empty : P [])
    (last : ∀ t : Text, t ≠ [] → t.IsInline → P t)
    (line : ∀ s u : Text, s.IsInline → P u → P (s ++ newline :: u)) (t : Text) : P t := by
  by_cases hi : t.IsInline
  · by_cases hn : t = []
    · exact hn ▸ empty
    · exact last t hn hi
  · have hm : newline ∈ t := by simpa [IsInline] using hi
    obtain ⟨s, u, he, hs⟩ := List.eq_append_cons_of_mem hm
    have hlt : u.length < t.length := by simp [he]; omega
    exact he ▸ line s u hs (inductionOnLines empty last line u)
termination_by t.length

/-- What is put in front of a text on its first line leaves the other lines alone. -/
theorem lines_isInline_append {s : Text} (hs : s.IsInline) (hne : s ≠ []) (t : Text) :
    lines (s ++ t) = (s ++ t.lines.headD []) :: t.lines.tail := by
  induction t using inductionOnLines with
  | empty => simp [lines_of_isInline hs hne, lines]
  | last t hn hi =>
    have hsne : s ++ t ≠ [] := fun h => hn (List.append_eq_nil_iff.1 h).2
    rw [lines_of_isInline hi hn, lines_of_isInline (isInline_append.2 ⟨hs, hi⟩) hsne]
    rfl
  | line a u ha =>
    have hline := lines_inline_append (t := u) (isInline_append.2 ⟨hs, ha⟩)
    rw [List.append_assoc] at hline
    rw [hline, lines_inline_append ha, List.append_assoc]
    rfl

/-- The text in front of a line is closed. -/
theorem isClosed_flatten_take_lines {t : Text} {n : Nat} (h : n < (lines t).length) :
    IsClosed ((lines t).take n).flatten := by
  induction t using inductionOnLines generalizing n with
  | empty => simp [lines] at h
  | last t hne hi =>
    rw [lines_of_isInline hi hne, List.length_singleton, Nat.lt_one_iff] at h
    simp [h]
  | line s u hs ih =>
    rw [lines_inline_append hs] at h ⊢
    cases n with
    | zero => simp
    | succ n =>
      rw [List.take_succ_cons, List.flatten_cons]
      exact (isClosed_concat.2 rfl).append (ih (by simpa using h))

/-! ### Writing line by line -/

theorem unlines_cons (line : Text) (ls : List Text) :
    unlines (line :: ls) = line ++ newline :: unlines ls := by
  simp [unlines, ofString]

theorem unlines_append (ls ms : List Text) : unlines (ls ++ ms) = unlines ls ++ unlines ms := by
  simp [unlines]

@[simp] theorem unlines_nil : unlines [] = [] := rfl

theorem isClosed_unlines (ls : List Text) : (unlines ls).IsClosed := by
  induction ls with
  | nil => simp
  | cons line ls ih =>
    rw [unlines_cons]
    exact isClosed_append (isClosed_cons.2 ⟨ih, fun _ => rfl⟩) (by simp)

theorem lines_unlines {ls : List Text} (h : ∀ line ∈ ls, line.IsInline) :
    lines (unlines ls) = ls.map (· ++ [newline]) := by
  induction ls with
  | nil => rfl
  | cons line ls ih =>
    rw [unlines_cons, lines_inline_append (h line (by simp)), List.map_cons,
      ih fun l hl => h l (by simp [hl])]

theorem exists_unlines_eq {t : Text} (h : t.IsClosed) : ∃ ls, unlines ls = t := by
  induction t using inductionOnLines with
  | empty => exact ⟨[], rfl⟩
  | last t hne hinline =>
    obtain ⟨s, rfl⟩ := h.eq_concat hne
    exact absurd (List.mem_append_right s (List.mem_singleton_self _)) hinline
  | line s u _ ih =>
    obtain ⟨hu, -⟩ := isClosed_cons.1 (h.of_append (List.cons_ne_nil _ _))
    obtain ⟨ls, rfl⟩ := ih hu
    exact ⟨s :: ls, unlines_cons s ls⟩

theorem lineBody_concat (body : Text) : lineBody (body ++ [newline]) = body := by
  simp [lineBody, dropEnd, endsWith, ofString]

theorem lineBody_of_isInline {t : Text} (h : t.IsInline) : lineBody t = t := by
  rcases List.eq_nil_or_concat' t with rfl | ⟨u, c, rfl⟩
  · rfl
  · have hc : c ≠ newline := fun hc => by simp [hc, IsInline] at h
    simp [lineBody, dropEnd, endsWith, ofString, hc]

theorem lineBody_isInline_append {s : Text} (hs : s.IsInline) (t : Text) :
    lineBody (s ++ t) = s ++ lineBody t := by
  rcases List.eq_nil_or_concat' t with rfl | ⟨u, c, rfl⟩
  · rw [List.append_nil, lineBody_of_isInline hs]
    exact (List.append_nil s).symm
  · rw [← List.append_assoc]
    by_cases hc : c = newline
    · rw [hc, lineBody_concat, lineBody_concat]
    · simp [lineBody, dropEnd, endsWith, ofString, hc]

theorem mem_of_mem_lineBody {t line : Text} {c : CodePoint} (hl : line ∈ lines t)
    (hc : c ∈ lineBody line) : c ∈ t := by
  rw [← flatten_lines t]
  refine List.mem_flatten_of_mem hl ?_
  rw [lineBody, dropEnd] at hc
  split at hc
  · exact List.mem_of_mem_take hc
  · exact hc

theorem replaceAll_of_not_mem {s t : Text} {c : Char} (h : CodePoint.scalar c ∉ s) :
    s.replaceAll c t = s := by
  induction s with
  | nil => rfl
  | cons d s ih =>
    obtain ⟨hd, hs⟩ : .scalar c ≠ d ∧ CodePoint.scalar c ∉ s := by simpa using h
    rw [replaceAll, List.flatMap_cons, if_neg (Ne.symm hd)]
    exact congrArg (d :: ·) (ih hs)

/-! ### Beginnings of lines -/

theorem anyLineFrom_eq_true {p : Text → Bool} {b : Bool} {t : Text} :
    anyLineFrom p b t = true ↔
      (b = true ∧ p t = true) ∨ ∃ s u, s ≠ [] ∧ IsClosed s ∧ t = s ++ u ∧ p u = true := by
  induction t generalizing b with
  | nil => simp [anyLineFrom]
  | cons c t ih =>
    rw [anyLineFrom, Bool.or_eq_true, Bool.and_eq_true, ih]
    refine or_congr_right ⟨?_, ?_⟩
    · rintro (⟨hc, hp⟩ | ⟨s, u, hs, hcl, rfl, hp⟩)
      · exact ⟨[c], t, by simp, by simpa [IsClosed] using hc, rfl, hp⟩
      · exact ⟨c :: s, u, by simp, isClosed_cons.2 ⟨hcl, fun h => absurd h hs⟩, rfl, hp⟩
    · rintro ⟨s, u, hs, hcl, he, hp⟩
      cases s with
      | nil => exact absurd rfl hs
      | cons d s =>
        simp only [List.cons_append, List.cons.injEq] at he
        obtain ⟨rfl, rfl⟩ := he
        obtain ⟨hcl, hd⟩ := isClosed_cons.1 hcl
        by_cases hn : s = []
        · subst hn; exact .inl ⟨by simpa using hd, hp⟩
        · exact .inr ⟨s, u, hn, hcl, rfl, hp⟩

/-- The beginnings of lines are behind the closed beginnings of a text. -/
theorem anyLine_eq_true {p : Text → Bool} {t : Text} :
    anyLine p t = true ↔ ∃ s u, IsClosed s ∧ t = s ++ u ∧ p u = true := by
  rw [anyLine, anyLineFrom_eq_true]
  constructor
  · rintro (⟨-, hp⟩ | ⟨s, u, -, h⟩)
    · exact ⟨[], t, by simp, rfl, hp⟩
    · exact ⟨s, u, h⟩
  · rintro ⟨s, u, h, rfl, hp⟩
    by_cases hs : s = []
    · subst hs; exact .inl ⟨rfl, hp⟩
    · exact .inr ⟨s, u, hs, h, rfl, hp⟩

theorem anyLineFrom_inline_append {p : Text → Bool} {b : Bool} {s t : Text} (hs : s.IsInline) :
    anyLineFrom p b (s ++ newline :: t) =
      ((b && p (s ++ newline :: t)) || anyLine p t) := by
  induction s generalizing b with
  | nil => simp [anyLineFrom, anyLine, CodePoint.isLineFeed]
  | cons c s ih =>
    obtain ⟨hc, hs⟩ := isInline_cons.1 hs
    rw [List.cons_append, anyLineFrom, ih hs]
    simp [hc, CodePoint.isLineFeed]

theorem anyLine_inline_append {p : Text → Bool} {s t : Text} (hs : s.IsInline) :
    anyLine p (s ++ newline :: t) = (p (s ++ newline :: t) || anyLine p t) := by
  rw [anyLine, anyLineFrom_inline_append hs, Bool.true_and]

end Text

end Scaffold
