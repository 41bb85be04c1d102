import Mathlib.Data.List.Forall2
import Mathlib.Data.List.Induction
import Scaffold.Text.Wildcard

/-!
# What a pattern stands for

A pattern stands for the texts that are made of one piece for each of its parts
(`Wildcard.StandsFor`).  `Wildcard.fits` decides that (`Wildcard.fits_eq_true_iff`): the rows that
it goes through tell, for each beginning of the pattern, whether it stands for what was read
(`Wildcard.IsRow`).

A text without wildcards, behind a star, stands for the texts that end with it
(`Wildcard.fits_star_append`).
-/

namespace Scaffold

namespace Wildcard

/-- The part stands for the text. -/
def Takes (w : Wildcard) (t : Text) : Prop := w = any ∨ ∃ c, t = [c] ∧ accepts c w = true

/-- The parts stand for the text, each for a piece of it. -/
def StandsFor (ws : List Wildcard) (t : Text) : Prop :=
  ∃ pieces : List Text, List.Forall₂ Takes ws pieces ∧ pieces.flatten = t

variable {w : Wildcard} {ws before : List Wildcard} {t : Text} {c : CodePoint}

theorem standsFor_nil : StandsFor [] t ↔ t = [] := by
  constructor
  · rintro ⟨pieces, h, rfl⟩
    rw [List.forall₂_nil_left_iff.1 h, List.flatten_nil]
  · rintro rfl
    exact ⟨[], .nil, rfl⟩

theorem standsFor_cons : StandsFor (w :: ws) t ↔
    ∃ u s, u ++ s = t ∧ Takes w u ∧ StandsFor ws s := by
  constructor
  · rintro ⟨pieces, h, rfl⟩
    obtain ⟨u, pieces, hu, hs, rfl⟩ := List.forall₂_cons_left_iff.1 h
    exact ⟨u, pieces.flatten, rfl, hu, pieces, hs, rfl⟩
  · rintro ⟨u, s, rfl, hu, pieces, hs, rfl⟩
    exact ⟨u :: pieces, .cons hu hs, rfl⟩

theorem standsFor_concat : StandsFor (ws ++ [w]) t ↔
    ∃ s u, s ++ u = t ∧ StandsFor ws s ∧ Takes w u := by
  induction ws generalizing t with
  | nil => simp [standsFor_cons, standsFor_nil]
  | cons v ws ih =>
    simp only [List.cons_append, standsFor_cons, ih]
    constructor
    · rintro ⟨u, _, rfl, hu, s, u', rfl, hs, hu'⟩
      exact ⟨u ++ s, u', List.append_assoc .., ⟨u, s, rfl, hu, hs⟩, hu'⟩
    · rintro ⟨_, u', rfl, ⟨u, s, rfl, hu, hs⟩, hu'⟩
      exact ⟨u, s ++ u', (List.append_assoc ..).symm, hu, s, u', rfl, hs, hu'⟩

/-! ### One more code point -/

theorem standsFor_concat_nil : StandsFor (ws ++ [w]) [] ↔ StandsFor ws [] ∧ w = any := by
  rw [standsFor_concat]
  constructor
  · rintro ⟨s, u, hsu, hs, rfl | ⟨c, rfl, -⟩⟩
    · exact ⟨(List.append_eq_nil_iff.1 hsu).1 ▸ hs, rfl⟩
    · simp at hsu
  · rintro ⟨hs, rfl⟩
    exact ⟨[], [], rfl, hs, .inl rfl⟩

theorem standsFor_concat_any : StandsFor (ws ++ [any]) (t ++ [c]) ↔
    StandsFor ws (t ++ [c]) ∨ StandsFor (ws ++ [any]) t := by
  constructor
  · rw [standsFor_concat]
    rintro ⟨s, u, hsu, hs, -⟩
    rcases List.eq_nil_or_concat' u with rfl | ⟨u, d, rfl⟩
    · exact .inl (by rwa [← hsu, List.append_nil])
    · rw [← List.append_assoc] at hsu
      obtain ⟨rfl, -⟩ := List.append_inj' hsu rfl
      exact .inr (standsFor_concat.2 ⟨s, u, rfl, hs, .inl rfl⟩)
  · rintro (h | h)
    · exact standsFor_concat.2 ⟨t ++ [c], [], List.append_nil _, h, .inl rfl⟩
    · obtain ⟨s, u, rfl, hs, -⟩ := standsFor_concat.1 h
      exact standsFor_concat.2 ⟨s, u ++ [c], (List.append_assoc ..).symm, hs, .inl rfl⟩

theorem standsFor_concat_of_ne_any (hw : w ≠ any) : StandsFor (ws ++ [w]) (t ++ [c]) ↔
    StandsFor ws t ∧ accepts c w = true := by
  rw [standsFor_concat]
  constructor
  · rintro ⟨s, u, hsu, hs, h | ⟨d, rfl, hd⟩⟩
    · exact absurd h hw
    · obtain ⟨rfl, hcd⟩ := List.append_inj' hsu rfl
      obtain rfl : d = c := by simpa using hcd
      exact ⟨hs, hd⟩
  · rintro ⟨hs, hc⟩
    exact ⟨t, [c], rfl, hs, .inr ⟨c, rfl, hc⟩⟩

/-! ### Rows -/

/-- The row tells, for `before` and each longer beginning of `before ++ ws`, whether it stands for
the text. -/
inductive IsRow (t : Text) : (before ws : List Wildcard) → List Bool → Prop
  /-- No longer beginning is left. -/
  | nil {before : List Wildcard} {b : Bool} (h : b = true ↔ StandsFor before t) :
    IsRow t before [] [b]
  /-- The next longer beginning. -/
  | cons {before ws : List Wildcard} {w : Wildcard} {b : Bool} {row : List Bool}
    (h : b = true ↔ StandsFor before t) (hrow : IsRow t (before ++ [w]) ws row) :
    IsRow t before (w :: ws) (b :: row)

theorem IsRow.headD_eq_true_iff {row : List Bool} (h : IsRow t before ws row) :
    row.headD false = true ↔ StandsFor before t := by
  cases h with
  | nil h => exact h
  | cons h _ => exact h

theorem IsRow.getLast?_eq_true_iff {row : List Bool} (h : IsRow t before ws row) :
    row.getLast?.getD false = true ↔ StandsFor (before ++ ws) t := by
  induction h with
  | nil h => simpa using h
  | @cons before ws w b row _ hrow ih =>
    have hne : row ≠ [] := by rintro rfl; cases hrow
    obtain ⟨c, row, rfl⟩ := List.exists_cons_of_ne_nil hne
    rw [List.getLast?_cons_cons, ih, List.append_assoc, List.singleton_append]

/-- The first row tells which beginnings stand for the empty text. -/
theorem isRow_blank {b : Bool} (h : b = true ↔ StandsFor before []) :
    IsRow [] before ws (blank b ws) := by
  induction ws generalizing before b with
  | nil => exact .nil h
  | cons w ws ih =>
    refine .cons h (ih ?_)
    rw [standsFor_concat_nil, Bool.and_eq_true, h, decide_eq_true_iff]

/-- The next row tells the same of the text with one more code point. -/
theorem IsRow.advance {row : List Bool} (h : IsRow t before ws row) {b : Bool}
    (hb : b = true ↔ StandsFor before (t ++ [c])) :
    IsRow (t ++ [c]) before ws (advance c b ws row) := by
  induction h generalizing b with
  | nil _ => exact .nil hb
  | @cons before ws w old row hold hrow ih =>
    refine .cons hb (ih ?_)
    by_cases hw : w = any
    · subst hw
      rw [if_pos rfl, Bool.or_eq_true, hb, hrow.headD_eq_true_iff, standsFor_concat_any]
    · rw [if_neg hw, Bool.and_eq_true, hold, standsFor_concat_of_ne_any hw]

theorem isRow_foldl (ws : List Wildcard) (t : Text) :
    IsRow t [] ws (t.foldl (fun row c => advance c false ws row) (blank true ws)) := by
  induction t using List.reverseRecOn with
  | nil => exact isRow_blank (by simp [standsFor_nil])
  | append_singleton t c ih =>
    rw [List.foldl_append]
    exact ih.advance (by simp [standsFor_nil])

/-- Matching a text in one pass decides what the pattern stands for. -/
theorem fits_eq_true_iff : fits ws t = true ↔ StandsFor ws t :=
  (isRow_foldl ws t).getLast?_eq_true_iff

/-! ### Patterns without brackets -/

theorem isPattern_cons : isPattern (c :: t) = false ↔
    (c ≠ .scalar '*' ∧ c ≠ .scalar '?' ∧ c ≠ .scalar '[') ∧ isPattern t = false := by
  simp [isPattern]

/-- A text without wildcards is read as its code points. -/
theorem readWithin_eq_map {fuel : Nat} (h : isPattern t = false) (hfuel : t.length ≤ fuel) :
    readWithin fuel t = t.map exactly := by
  induction t generalizing fuel with
  | nil => cases fuel <;> rfl
  | cons c t ih =>
    obtain ⟨⟨hstar, hmark, hbracket⟩, ht⟩ := isPattern_cons.1 h
    cases fuel with
    | zero => cases hfuel
    | succ fuel =>
      rw [readWithin, if_neg hstar, if_neg hmark, if_neg hbracket,
        ih ht (Nat.le_of_succ_le_succ hfuel), List.map_cons]

theorem standsFor_map_exactly {s : Text} : StandsFor (s.map exactly) t ↔ t = s := by
  induction s generalizing t with
  | nil => rw [List.map_nil, standsFor_nil]
  | cons c s ih =>
    simp only [List.map_cons, standsFor_cons, ih]
    constructor
    · rintro ⟨u, _, rfl, h | ⟨d, rfl, hd⟩, rfl⟩
      · cases h
      · obtain rfl : d = c := by simpa [accepts] using hd
        rfl
    · rintro rfl
      exact ⟨[c], s, rfl, .inr ⟨c, rfl, by simp [accepts]⟩, rfl⟩

/-- A star and a text without wildcards stand for what ends with the text. -/
theorem fits_star_append {s : Text} (h : isPattern s = false) :
    fits (read ("*" ++ s)) t = true ↔ s <:+ t := by
  have hread : read ("*" ++ s) = any :: s.map exactly :=
    congrArg (any :: ·) (readWithin_eq_map h (Nat.le_refl _))
  rw [fits_eq_true_iff, hread, standsFor_cons]
  constructor
  · rintro ⟨u, v, rfl, -, hv⟩
    exact standsFor_map_exactly.1 hv ▸ List.suffix_append u v
  · rintro ⟨u, rfl⟩
    exact ⟨u, s, rfl, .inl rfl, standsFor_map_exactly.2 rfl⟩

end Wildcard

end Scaffold
