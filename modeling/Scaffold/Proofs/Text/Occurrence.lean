import Scaffold.Proofs.Text.Lines

/-!
# Occurrences of a word in a text

`Text.includes` decides the infix relation (`Text.includes_eq_true`), and `Text.cut?` finds the
first occurrence (`Text.not_infix_of_cut?`, `Text.cut?_of_first`), whatever follows the text
(`Text.cut?_append`).  A word that stays on one line occurs in a text where one of its lines has it
(`Text.includes_append_newline`), so lines that are put between others never hide it.
-/

namespace Scaffold

namespace Text

open CodePoint

theorem dropStart?_append (s t : Text) : dropStart? s (s ++ t) = some t :=
  dropStart?_eq_some_iff.2 rfl

@[simp] theorem dropStart?_nil (t : Text) : dropStart? [] t = some t := by
  cases t <;> rfl

theorem dropStart?_append_of_eq_some {w t rest : Text} (u : Text) (h : dropStart? w t = some rest) :
    dropStart? w (t ++ u) = some (rest ++ u) := by
  rw [dropStart?_eq_some_iff.1 h, List.append_assoc, dropStart?_append]

theorem endsWith_eq_true_iff {t tail : Text} : t.endsWith tail = true ↔ tail <:+ t := by
  rw [endsWith, Bool.and_eq_true, decide_eq_true_iff, beq_iff_eq]
  constructor
  · rintro ⟨-, h⟩
    exact h ▸ List.drop_suffix _ t
  · rintro ⟨s, rfl⟩
    simp

theorem dropEnd_append (s tail : Text) : (s ++ tail).dropEnd tail = s := by
  rw [dropEnd, if_pos (endsWith_eq_true_iff.2 (List.suffix_append s tail))]
  simp

theorem cut?_append {w t before rest : Text} (u : Text) (h : cut? w t = some (before, rest)) :
    cut? w (t ++ u) = some (before, rest ++ u) := by
  induction t generalizing before with
  | nil =>
    obtain ⟨r, hr, he⟩ := Option.map_eq_some_iff.1 h
    simp only [Prod.mk.injEq] at he
    obtain ⟨rfl, rfl⟩ := he
    have hw : w = [] := (List.append_eq_nil_iff.1 (dropStart?_eq_some_iff.1 hr).symm).1
    subst hw
    cases u with
    | nil => simpa using h
    | cons c u => simpa [cut?] using (dropStart?_eq_some_iff.1 hr).symm
  | cons c t ih =>
    rw [cut?] at h
    rw [List.cons_append, cut?]
    cases hd : dropStart? w (c :: t) with
    | some r =>
      rw [hd] at h
      simp only [Option.some.injEq, Prod.mk.injEq] at h
      obtain ⟨rfl, rfl⟩ := h
      rw [← List.cons_append, dropStart?_append_of_eq_some u hd]
    | none =>
      rw [hd] at h
      obtain ⟨⟨b, r⟩, hr, he⟩ := Option.map_eq_some_iff.1 h
      simp only [Prod.mk.injEq] at he
      obtain ⟨rfl, rfl⟩ := he
      have hlen : w.length ≤ (c :: t).length := by
        have := congrArg List.length (eq_of_cut? hr)
        simp only [List.length_append, List.length_cons] at this ⊢
        omega
      have hnone : dropStart? w (c :: (t ++ u)) = none := by
        refine Option.eq_none_iff_forall_ne_some.2 fun r' hr' => ?_
        have hw : w <+: c :: t ++ u := ⟨r', (dropStart?_eq_some_iff.1 hr').symm⟩
        obtain ⟨r'', hr''⟩ := List.prefix_of_prefix_length_le hw (List.prefix_append _ u) hlen
        rw [← hr'', dropStart?_append] at hd
        cases hd
      rw [hnone, ih hr]
      rfl

theorem includes_eq_true {t w : Text} : t.includes w = true ↔ w <:+: t := by
  rw [includes, Option.isSome_iff_exists]
  constructor
  · rintro ⟨⟨before, rest⟩, h⟩
    exact ⟨before, rest, (eq_of_cut? h).symm⟩
  · rintro ⟨before, rest, rfl⟩
    induction before with
    | nil =>
      rw [List.nil_append]
      cases hw : w ++ rest with
      | nil =>
        have : w = [] := (List.append_eq_nil_iff.1 hw).1
        exact ⟨([], []), by simp [this, cut?]⟩
      | cons c t =>
        refine ⟨([], rest), ?_⟩
        rw [cut?, ← hw, dropStart?_append]
    | cons c before ih =>
      obtain ⟨⟨b, r⟩, h⟩ := ih
      rw [List.append_assoc, List.cons_append, ← List.append_assoc, cut?]
      cases hd : dropStart? w (c :: (before ++ w ++ rest)) with
      | some r => exact ⟨_, rfl⟩
      | none => exact ⟨(c :: b, r), by rw [h]; rfl⟩

/-- What is cut at a word holds no earlier occurrence of it. -/
theorem not_infix_of_cut? {word t before rest : Text} (hne : word ≠ [])
    (h : cut? word t = some (before, rest)) : ¬ word <:+: before ++ word.dropLast := by
  have hshort : ¬ word <:+: word.dropLast := fun hin => by
    have := hin.length_le
    have := List.length_pos_iff.2 hne
    rw [List.length_dropLast] at *
    omega
  induction t generalizing before with
  | nil =>
    obtain ⟨r, -, he⟩ := Option.map_eq_some_iff.1 h
    cases he
    exact hshort
  | cons c t ih =>
    rw [cut?] at h
    split at h
    · cases h
      exact hshort
    · rename_i hnone
      obtain ⟨⟨b, r⟩, hcut, he⟩ := Option.map_eq_some_iff.1 h
      cases he
      rw [List.cons_append, List.infix_cons_iff]
      rintro (hbegins | hlater)
      · have hlonger : c :: (b ++ word.dropLast) <+: c :: t := by
          rw [eq_of_cut? hcut, List.append_assoc, List.cons_prefix_cons]
          exact ⟨rfl, (List.prefix_append_right_inj b).2
            ((List.dropLast_prefix word).trans (List.prefix_append word _))⟩
        obtain ⟨u, hu⟩ := hbegins.trans hlonger
        rw [← hu, dropStart?_append] at hnone
        cases hnone
      · exact ih hcut hlater

/-- What ends with the only occurrence of a word is cut there. -/
theorem cut?_of_first {w s u : Text} (hw : w ≠ []) (h : (s ++ w.dropLast).includes w = false) :
    cut? w (s ++ (w ++ u)) = some (s, u) := by
  induction s with
  | nil =>
    obtain ⟨c, v, rfl⟩ := List.exists_cons_of_ne_nil hw
    rw [List.nil_append, List.cons_append, cut?, ← List.cons_append, dropStart?_append]
  | cons c s ih =>
    have hnone : dropStart? w (c :: s ++ (w ++ u)) = none := by
      refine Option.eq_none_iff_forall_ne_some.2 fun rest hr => ?_
      have hlen : w.length ≤ (c :: s ++ w.dropLast).length := by
        have := List.length_pos_of_ne_nil hw
        simp only [List.length_append, List.length_cons, List.length_dropLast]
        omega
      have hlast : w.dropLast <+: w := List.dropLast_prefix w
      have hpre : c :: s ++ w.dropLast <+: c :: s ++ (w ++ u) :=
        (List.prefix_append_right_inj _).2 (hlast.trans (List.prefix_append w u))
      have hw' : w <+: c :: s ++ (w ++ u) := ⟨rest, (dropStart?_eq_some_iff.1 hr).symm⟩
      have hin := (List.prefix_of_prefix_length_le hw' hpre hlen).isInfix
      rw [← includes_eq_true, h] at hin
      cases hin
    have hrest : includes (s ++ w.dropLast) w = false := by
      rw [Bool.eq_false_iff, ne_eq, includes_eq_true] at h ⊢
      exact fun hi => h (List.infix_cons hi)
    rw [List.cons_append] at hnone
    rw [List.cons_append, cut?, hnone, ih hrest]
    rfl

theorem includes_nil {w : Text} (hne : w ≠ []) : includes [] w = false := by
  rw [Bool.eq_false_iff, ne_eq, includes_eq_true, List.infix_nil]
  exact hne

/-- A word does not begin in a text that lacks its first code point. -/
theorem includes_append_of_not_mem {s w : Text} {c : CodePoint} (hc : c ∉ s) (t : Text) :
    (s ++ t).includes (c :: w) = t.includes (c :: w) := by
  induction s with
  | nil => rfl
  | cons d s ih =>
    rw [List.mem_cons, not_or] at hc
    rw [← ih hc.2, Bool.eq_iff_iff, includes_eq_true, includes_eq_true, List.cons_append,
      List.infix_cons_iff]
    refine or_iff_right fun hprefix => hc.1 ?_
    exact (List.cons_prefix_cons.1 hprefix).1

/-- A word that stays on one line does not reach beyond a line feed. -/
theorem includes_append_newline {w s t : Text} (hw : w.IsInline) (hne : w ≠ []) :
    (s ++ newline :: t).includes w = (s.includes w || t.includes w) := by
  rw [Bool.eq_iff_iff, Bool.or_eq_true, includes_eq_true, includes_eq_true, includes_eq_true]
  constructor
  · intro h
    rcases List.infix_append_iff.1 h with h | h | ⟨l₁, l₂, rfl, hs, hp⟩
    · exact .inl h
    · rcases List.infix_cons_iff.1 h with h | h
      · obtain ⟨r, hr⟩ := h
        cases w with
        | nil => exact absurd rfl hne
        | cons c w =>
          simp only [List.cons_append, List.cons.injEq] at hr
          exact absurd hr.1 (isInline_cons.1 hw).1
      · exact .inr h
    · cases l₂ with
      | nil => exact .inl (by simpa using hs.isInfix)
      | cons c l₂ =>
        obtain ⟨r, hr⟩ := hp
        simp only [List.cons_append, List.cons.injEq] at hr
        exact absurd hr.1 (isInline_cons.1 (isInline_append.1 hw).2).1
  · rintro (h | h)
    · exact List.infix_append_of_infix_left h
    · exact List.infix_append_of_infix_right (List.infix_cons h)

/-- An occurrence of a word on one line lies on one side of a closed text. -/
theorem includes_append_of_isClosed {w s t : Text} (hw : w.IsInline) (hne : w ≠ [])
    (hs : s.IsClosed) : (s ++ t).includes w = (s.includes w || t.includes w) := by
  by_cases h : s = []
  · subst h
    simp [includes_nil hne]
  · obtain ⟨u, rfl⟩ := hs.eq_concat h
    have hu := includes_append_newline (s := u) (t := []) hw hne
    rw [List.append_assoc, List.singleton_append, includes_append_newline hw hne, hu,
      includes_nil hne, Bool.or_false]

end Text

end Scaffold
