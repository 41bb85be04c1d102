import Scaffold.Proofs.Token.Lexing
import Scaffold.Proofs.Token.Span
import Scaffold.Proofs.Token.Steps

/-!
# Quotations

Strings, templates and the substitutions in them end with a mark of their own.  A scanner that has
found it does not look at the text behind it (`ReadsUpTo`): `scanString_local`,
`scanTemplate_local`, `skipSubstitution_local`.  Each goes along the steps of the scanner, and takes
the same step in front of another text.
-/

namespace Scaffold

open CodePoint

/-- A number of fixed width is complete if something is left behind it. -/
theorem take_drop_of_drop_ne_nil {width : Nat} {t : Text} (h : t.drop width ≠ []) (rest : Text) :
    (t.take width ++ rest).take width = t.take width ∧
      (t.take width ++ rest).drop width = rest := by
  have hlength : (t.take width).length = width := by
    rw [List.length_take, Nat.min_eq_left]
    exact Nat.le_of_lt (Nat.lt_of_not_le (List.drop_eq_nil_iff.not.1 h))
  exact ⟨List.take_left' hlength, List.drop_left' hlength⟩

/-- An escape sequence does not depend on what follows it, unless it is cut short. -/
theorem Escape.read_local {t v rest : Text} (h : read t = .ok (v, rest)) (hrest : rest ≠ []) :
    ∃ escaped, t = escaped ++ rest ∧ ∀ rest', read (escaped ++ rest') = .ok (v, rest') := by
  unfold read at h
  split at h
  · cases h
  · rename_i t
    split at h
    · cases h
    · rename_i digits r hcut
      obtain ⟨c, hc, hv⟩ := Except.map_eq_ok_iff.1 h
      cases hv
      refine ⟨.scalar 'u' :: .scalar '\x7b' :: (digits ++ "\x7d"), ?_, fun rest' => ?_⟩
      · simp [Text.eq_of_cut? hcut]
      · have hcut' := Text.cut?_of_first (u := rest') (by decide)
          (Bool.eq_false_iff.2 (Text.includes_eq_true.not.2
            (Text.not_infix_of_cut? (by decide) hcut)))
        simp only [List.cons_append, List.append_assoc, read, hcut', hc]
        rfl
  · rename_i t hbrace
    obtain ⟨c, hc, hv⟩ := Except.map_eq_ok_iff.1 h
    cases hv
    refine ⟨.scalar 'u' :: t.take 4, by simp, fun rest' => ?_⟩
    obtain ⟨htake, hdrop⟩ := take_drop_of_drop_ne_nil hrest rest'
    rw [List.cons_append, read, htake, hdrop, hc]
    · rfl
    · intro u hu
      cases t with
      | nil => exact hrest rfl
      | cons d t => exact hbrace t (congrArg (· :: t) (List.cons.inj hu).1)
  · rename_i t
    obtain ⟨c, hc, hv⟩ := Except.map_eq_ok_iff.1 h
    cases hv
    refine ⟨.scalar 'x' :: t.take 2, by simp, fun rest' => ?_⟩
    obtain ⟨htake, hdrop⟩ := take_drop_of_drop_ne_nil hrest rest'
    rw [List.cons_append, read, htake, hdrop, hc]
    rfl
  · cases h
    exact ⟨[.scalar '\n'], rfl, fun _ => rfl⟩
  · rename_i c t _ hu hx hn
    cases h
    refine ⟨[c], rfl, fun rest' => ?_⟩
    rw [List.singleton_append, read]
    · exact fun _ h _ => hu h
    · exact hu
    · exact hx
    · exact hn

/-- The scanner reads `v` up to `rest`, or up to whatever stands there instead. -/
def ReadsUpTo {α : Type} (f : Nat → (t : Text) → Except LexFault (Scanned α t)) (t : Text) (v : α)
    (rest : Text) : Prop :=
  ∃ body, body ≠ [] ∧ t = body ++ rest ∧ ∀ start rest', Scans (f start (body ++ rest')) v rest'

namespace ReadsUpTo

variable {α β : Type} {f : Nat → (t : Text) → Except LexFault (Scanned α t)}
  {g : Nat → (t : Text) → Except LexFault (Scanned β t)} {t rest : Text} {v : α}

theorem ne_nil (h : ReadsUpTo f t v rest) : t ≠ [] := by
  obtain ⟨body, hne, rfl, -⟩ := h
  simp [hne]

/-- The mark alone. -/
theorem mark {c : CodePoint} (h : ∀ start rest', Scans (f start (c :: rest')) v rest')
    (rest : Text) : ReadsUpTo f (c :: rest) v rest :=
  ⟨[c], List.cons_ne_nil _ _, rfl, h⟩

/-- What is read in front, before the scanner goes on. -/
theorem step {w : β} (h : ReadsUpTo f t v rest) (read : Text)
    (hread : ∀ start u rest', Scans (f start u) v rest' → Scans (g start (read ++ u)) w rest') :
    ReadsUpTo g (read ++ t) w rest := by
  obtain ⟨body, hne, rfl, hbody⟩ := h
  refine ⟨read ++ body, by simp [hne], (List.append_assoc _ _ _).symm, fun start rest' => ?_⟩
  rw [List.append_assoc]
  exact hread start _ rest' (hbody start rest')

end ReadsUpTo

/-- A string is read the same, whatever follows it. -/
theorem scanString_local {quote : CodePoint} {start : Nat} {t v rest : Text}
    (h : Scans (scanString quote start t) v rest) : ReadsUpTo (scanString quote) t v rest := by
  fun_induction scanString quote start t generalizing v with
  | case1 | case3 | case5 => obtain ⟨s, hs, -⟩ := h; cases hs
  | case2 t =>
    obtain ⟨s, hs, rfl, rfl⟩ := h
    cases hs
    exact .mark (scanString_quote quote) _
  | case4 t v r hread hr hq ih =>
    obtain ⟨w, hw, rfl⟩ := h.of_lift
    obtain ⟨escaped, rfl, hescaped⟩ := Escape.read_local hread (ih hw).ne_nil
    exact (ih hw).step (.scalar '\\' :: escaped) fun _ u _ hu =>
      scanString_escape (Ne.symm hq) (hescaped u) hu
  | case6 c t hquote hescape hline ih =>
    obtain ⟨w, hw, rfl⟩ := h.of_lift
    exact (ih hw).step [c] fun _ _ _ hu => scanString_text hquote hescape hline hu

/-- A part is passed over, and the substitution goes on behind it. -/
theorem PassesOver.readsUpTo {depth depth' : Nat} {part t rest : Text}
    (h : PassesOver depth part depth')
    (ht : ReadsUpTo (fun _ => skipSubstitution depth') t () rest) :
    ReadsUpTo (fun _ => skipSubstitution depth) (part ++ t) () rest :=
  ht.step part fun _ u rest' => h u rest'

mutual

/-- A template is read the same, whatever follows it. -/
theorem scanTemplate_local {start : Nat} {t : Text} {v : Text × Bool} {rest : Text}
    (h : Scans (scanTemplate start t) v rest) : ReadsUpTo scanTemplate t v rest := by
  rw [scanTemplate.eq_def] at h
  cases t with
  | nil => obtain ⟨s, hs, -⟩ := h; cases hs
  | cons c t =>
    dsimp only at h
    split_ifs at h with hquote hescape hdollar
    · obtain ⟨s, hs, rfl, rfl⟩ := h
      cases hs
      subst hquote
      exact .mark scanTemplate_quote _
    · split at h
      · obtain ⟨s, hs, -⟩ := h; cases hs
      · rename_i w r hread
        obtain ⟨⟨w', i⟩, hw, rfl⟩ := h.of_lift
        have hshorter := Escape.length_read hread
        have hrest := scanTemplate_local hw
        obtain ⟨escaped, rfl, hescaped⟩ := Escape.read_local hread hrest.ne_nil
        subst hescape
        exact hrest.step (.scalar '\\' :: escaped) fun _ u _ hu =>
          scanTemplate_escape (hescaped u) hu
    · split at h
      · rename_i t
        split at h
        · obtain ⟨s, hs, -⟩ := h; cases hs
        · rename_i inner hinner
          have hshorter := inner.shorter
          obtain ⟨⟨w, i⟩, hw, rfl⟩ := h.of_lift
          obtain ⟨skipped, -, hskipped, hskips⟩ :=
            skipSubstitution_local ⟨inner, hinner, rfl, rfl⟩
          have hrest := (scanTemplate_local hw).step (g := scanTemplate) (w := (w, true))
            (.scalar '$' :: .scalar '\x7b' :: skipped) fun _ u _ hu =>
              scanTemplate_substitution (hskips 0 u) hu
          rw [hdollar, hskipped]
          exact hrest
      · -- a dollar sign alone is text, and what stands behind it is still no brace
        rename_i hbrace
        obtain ⟨⟨w, i⟩, hw, rfl⟩ := h.of_lift
        obtain ⟨body, hne, rfl, hbody⟩ := scanTemplate_local hw
        obtain ⟨d, body, rfl⟩ := List.exists_cons_of_ne_nil hne
        refine ⟨c :: d :: body, by simp, rfl, fun start' rest' =>
          scanTemplate_text hquote hescape ?_ (hbody start' rest')⟩
        rintro ⟨u, hu⟩
        exact hbrace _ (congrArg (· :: (body ++ rest)) (List.cons.inj (List.cons.inj hu).2).1.symm)
    · obtain ⟨⟨w, i⟩, hw, rfl⟩ := h.of_lift
      refine (scanTemplate_local hw).step [c] fun _ u _ hu => scanTemplate_text hquote hescape ?_ hu
      rintro ⟨u, hu⟩
      exact hdollar (List.cons.inj hu).1.symm
termination_by t.length
decreasing_by all_goals subst_vars; simp only [List.length_cons] at *; omega

/-- A substitution is skipped the same, whatever follows it. -/
theorem skipSubstitution_local {depth : Nat} {t rest : Text}
    (h : Scans (skipSubstitution depth t) () rest) :
    ReadsUpTo (fun _ => skipSubstitution depth) t () rest := by
  rw [skipSubstitution.eq_def] at h
  cases t with
  | nil => obtain ⟨s, hs, -⟩ := h; cases hs
  | cons c t =>
    dsimp only at h
    split_ifs at h with hstring htemplate hopen hclose
    · split at h
      · obtain ⟨s, hs, -⟩ := h; cases hs
      · rename_i inner hinner
        have hshorter := inner.shorter
        obtain ⟨_, hw, -⟩ := h.of_lift
        obtain ⟨literal, -, hliteral, hscans⟩ := scanString_local ⟨inner, hinner, rfl, rfl⟩
        rw [hliteral]
        exact (PassesOver.string hstring hscans depth).readsUpTo (skipSubstitution_local hw)
    · split at h
      · obtain ⟨s, hs, -⟩ := h; cases hs
      · rename_i inner hinner
        have hshorter := inner.shorter
        obtain ⟨_, hw, -⟩ := h.of_lift
        obtain ⟨literal, -, hliteral, hscans⟩ := scanTemplate_local ⟨inner, hinner, rfl, rfl⟩
        rw [htemplate, hliteral]
        exact (PassesOver.template hscans depth).readsUpTo (skipSubstitution_local hw)
    · obtain ⟨_, hw, -⟩ := h.of_lift
      rw [hopen]
      exact (PassesOver.opening depth).readsUpTo (skipSubstitution_local hw)
    · rw [hclose]
      split at h
      · obtain ⟨s, hs, -, rfl⟩ := h
        cases hs
        exact .mark (fun _ => skipSubstitution_brace) _
      · obtain ⟨_, hw, -⟩ := h.of_lift
        exact (PassesOver.closing _).readsUpTo (skipSubstitution_local hw)
    · obtain ⟨_, hw, -⟩ := h.of_lift
      exact (PassesOver.other hstring htemplate hopen hclose depth).readsUpTo
        (skipSubstitution_local hw)
termination_by t.length
decreasing_by all_goals subst_vars; simp only [List.length_cons] at *; omega

end

end Scaffold
