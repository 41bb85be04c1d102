import Mathlib.Data.List.Infix
import Scaffold.Proofs.Expr.Reading
import Scaffold.Proofs.Outcome

/-!
# Where a reading comes from

The readers of expressions stay within the tokens they are given (`Within`): what they leave is an
end of these tokens, and the only error they answer is that of a number literal among them.

What they find comes from these tokens too.  An element or the value of a property is what `read`
finds at some place among them (`FoundIn`).
-/

namespace Scaffold

/-- A number literal among the tokens is refused with `e`. -/
def RefusesNumber (ts : List Token) (e : NumeralError) : Prop :=
  ∃ t ∈ ts, t.kind = .number ∧ Numeral.read t.value = .error e

theorem RefusesNumber.mono {ts us : List Token} {e : NumeralError} (h : RefusesNumber ts e)
    (hsub : ts ⊆ us) : RefusesNumber us e := by
  obtain ⟨t, ht, hkind, hread⟩ := h
  exact ⟨t, hsub ht, hkind, hread⟩

/-- The reading stays within its tokens. -/
def Within {α : Type} {ts : List Token} : Except NumeralError (Parsed α ts) → Prop
  | .ok p => p.rest <:+ ts
  | .error e => RefusesNumber ts e

/-- A reading of an end of the tokens stays within all of them. -/
theorem Within.lift {α β : Type} {ts us : List Token} {x : Except NumeralError (Parsed α ts)}
    (h : Within x) (f : α → β) (hle : ts.length ≤ us.length) (hsuffix : ts <:+ us) :
    Within (x.map (Parsed.lift f hle)) := by
  cases x with
  | ok p => exact h.trans hsuffix
  | error e => exact RefusesNumber.mono h hsuffix.subset

/-- A string, or a template without substitutions. -/
def Token.IsQuotation (t : Token) : Prop := t.kind = .string ∨ t.kind = .template false

namespace Expr

variable {source close : Text} {t u : Token} {ts us rest : List Token}

theorem skipBalanced_suffix (stack : List Text) (operand : Bool) (ts : List Token) :
    (skipBalanced stack operand ts).2 <:+ ts :=
  ⟨_, skipBalanced_append stack operand ts⟩

theorem skipTypeArguments_suffix {depth : Int} (h : skipTypeArguments depth ts = some rest) :
    rest <:+ ts := by
  fun_induction skipTypeArguments depth ts with
  | case1 | case2 | case5 | case7 => simp at h
  | case3 _ _ _ _ _ ih | case6 _ _ _ _ _ _ _ ih | case8 _ _ _ _ _ _ _ ih =>
    exact (ih h).trans (List.suffix_cons _ _)
  | case4 =>
    obtain rfl := Option.some.inj h
    exact List.suffix_cons _ _

theorem skipAsConst_suffix (ts : List Token) : skipAsConst ts <:+ ts := by
  unfold skipAsConst
  split
  · split
    · exact (List.suffix_cons _ _).trans (List.suffix_cons _ _)
    · exact List.suffix_refl _
  · exact List.suffix_refl _

mutual

theorem within_read (source : Text) (ts : List Token) : Within (read source ts) := by
  have hprimary := within_readPrimary source ts
  rw [read]
  split
  · rename_i e he
    rwa [he] at hprimary
  · rename_i p hp
    rw [hp] at hprimary
    split
    · exact skipBalanced_suffix [] true ts
    · split
      · exact (skipAsConst_suffix _).trans hprimary
      · exact skipBalanced_suffix [] true ts
termination_by (ts.length, 2)

theorem within_readPrimary (source : Text) (ts : List Token) : Within (readPrimary source ts) := by
  cases ts with
  | nil =>
    rw [readPrimary]
    exact List.suffix_refl []
  | cons t rest =>
    rw [readPrimary.eq_def]
    dsimp only
    split
    · exact List.suffix_cons t rest
    · exact List.suffix_cons t rest
    · rename_i hkind
      split
      · rename_i e he
        exact ⟨t, List.mem_cons_self, hkind, he⟩
      · exact List.suffix_cons t rest
    · split
      · cases rest with
        | nil => exact List.suffix_refl [t]
        | cons num rest =>
          dsimp only
          split
          · rename_i hkind
            split
            · rename_i e he
              exact ⟨num, by simp, hkind, he⟩
            · exact (List.suffix_cons num rest).trans (List.suffix_cons t _)
          · exact List.suffix_refl _
      · split
        · exact (within_readItems source "]" true rest).lift _ _ (List.suffix_cons t rest)
        · split
          · exact (within_readMembers source rest).lift _ _ (List.suffix_cons t rest)
          · exact List.suffix_refl _
    · split
      · split
        · exact (within_readChain source t rest).lift _ _ (List.suffix_cons t rest)
        · exact List.suffix_cons t rest
      · exact (within_readChain source t rest).lift _ _ (List.suffix_cons t rest)
    · exact List.suffix_refl _
termination_by (ts.length, 1)

theorem within_readChain (source : Text) (head : Token) (ts : List Token) :
    Within (readChain source head ts) := by
  rw [readChain]
  exact (within_readSegments source head.stop ts).lift _ _ (List.suffix_refl ts)
termination_by (ts.length, 4)

theorem within_readSegments (source : Text) (stop : Nat) (ts : List Token) :
    Within (readSegments source stop ts) := by
  cases ts with
  | nil =>
    rw [readSegments]
    exact List.suffix_refl []
  | cons t rest =>
    rw [readSegments.eq_def]
    dsimp only
    split
    · cases rest with
      | nil => exact List.suffix_refl [t]
      | cons name rest =>
        exact (within_readSegments source name.stop rest).lift _ _
          ((List.suffix_cons name rest).trans (List.suffix_cons t _))
    · split
      · split
        · rename_i after h
          have := length_skipTypeArguments h
          exact (within_readSegments source stop after).lift _ _ (skipTypeArguments_suffix h)
        · exact List.suffix_refl _
      · split
        · have hitems := within_readItems source ")" false rest
          split
          · rename_i e he
            rw [he] at hitems
            exact hitems.mono (List.subset_cons_self t rest)
          · rename_i p hp
            rw [hp] at hitems
            have hrest : p.rest <:+ t :: rest := hitems.trans (List.suffix_cons t rest)
            have := p.le
            split
            · exact hrest
            · rename_i arguments stop' _
              exact (within_readSegments source stop' p.rest).lift _ _ hrest
        · exact List.suffix_refl _
termination_by (ts.length, 3)

theorem within_readItems (source : Text) (close : Text) (holes : Bool) (ts : List Token) :
    Within (readItems source close holes ts) := by
  cases ts with
  | nil =>
    rw [readItems]
    exact List.suffix_refl []
  | cons t rest =>
    rw [readItems]
    split
    · exact List.suffix_cons t rest
    · split
      · exact List.suffix_refl _
      · split
        · exact (within_readItems source close holes rest).lift _ _ (List.suffix_cons t rest)
        · have hread := within_read source (t :: rest)
          split
          · rename_i e he
            rwa [he] at hread
          · rename_i p hp
            rw [hp] at hread
            replace hread : p.rest <:+ t :: rest := hread
            split
            · exact List.nil_suffix
            · rename_i u after hrest
              rw [hrest] at hread
              have hafter : after <:+ t :: rest := (List.suffix_cons u after).trans hread
              have hlength : after.length ≤ rest.length := Nat.le_of_lt_succ hread.length_le
              split
              · exact (within_readItems source close holes after).lift _ _ hafter
              · split
                · exact hafter
                · exact hread
termination_by (ts.length, 3)

theorem within_readMember (source : Text) (ts : List Token) : Within (readMember source ts) := by
  cases ts with
  | nil =>
    rw [readMember]
    exact List.suffix_refl []
  | cons t rest =>
    rw [readMember.eq_def]
    dsimp only
    split
    · exact (within_read source rest).lift _ _ (List.suffix_cons t rest)
    · split
      · cases rest with
        | nil => exact List.nil_suffix
        | cons u after =>
          dsimp only
          split
          · exact (within_read source after).lift _ _
              ((List.suffix_cons u after).trans (List.suffix_cons t _))
          · split
            · exact List.suffix_cons t _
            · exact (skipBalanced_suffix [] true _).trans (List.suffix_cons t _)
      · exact skipBalanced_suffix [] true _
termination_by (ts.length, 3)

theorem within_readMembers (source : Text) (ts : List Token) : Within (readMembers source ts) := by
  cases ts with
  | nil =>
    rw [readMembers]
    exact List.suffix_refl []
  | cons t rest =>
    rw [readMembers]
    split
    · exact List.suffix_cons t rest
    · split
      · exact List.suffix_refl _
      · have hmember := within_readMember source (t :: rest)
        split
        · rename_i e he
          rwa [he] at hmember
        · rename_i p hp
          rw [hp] at hmember
          replace hmember : p.rest <:+ t :: rest := hmember
          split
          · exact List.nil_suffix
          · rename_i u after hrest
            rw [hrest] at hmember
            have hafter : after <:+ t :: rest := (List.suffix_cons u after).trans hmember
            have hlength : after.length ≤ rest.length := Nat.le_of_lt_succ hmember.length_le
            split
            · exact (within_readMembers source after).lift _ _ hafter
            · split
              · exact hafter
              · exact hmember
termination_by (ts.length, 4)

end

/-- Tokens without a number are read. -/
theorem exists_read (source : Text) (ts : List Token) (hts : ∀ t ∈ ts, t.kind ≠ .number) :
    ∃ p, read source ts = .ok p := by
  have hwithin := within_read source ts
  cases h : read source ts with
  | ok p => exact ⟨p, rfl⟩
  | error e =>
    rw [h] at hwithin
    obtain ⟨t, ht, hkind, -⟩ := hwithin
    exact absurd hkind (hts t ht)

/-! ### What is found -/

/-- The expression is read at some place among the tokens. -/
def FoundIn (source : Text) (ts : List Token) (node : Node) : Prop :=
  ∃ us p, us <:+ ts ∧ read source us = .ok p ∧ p.value = node

theorem FoundIn.mono {node : Node} (h : FoundIn source ts node) (hsuffix : ts <:+ us) :
    FoundIn source us node := by
  obtain ⟨vs, p, hvs, hp, rfl⟩ := h
  exact ⟨vs, p, hvs.trans hsuffix, hp, rfl⟩

/-- The value of a member is read among the tokens, or is the key itself where only that is
written. -/
def ValueFoundIn (source : Text) (ts : List Token) : Member → Prop
  | .property key value =>
    FoundIn source ts value ∨ ∃ span, value = .verbatim span key
  | .spread _ => True

theorem ValueFoundIn.mono {m : Member} (h : ValueFoundIn source ts m) (hsuffix : ts <:+ us) :
    ValueFoundIn source us m := by
  cases m with
  | property key value => exact h.imp_left fun h => h.mono hsuffix
  | spread text => trivial

/-- Everything in the list that was read satisfies `P`. -/
def Yields {α : Type} (P : α → Prop) :
    Except NumeralError (Parsed (Option (List α × Nat)) ts) → Prop
  | .ok p => ∀ xs stop, p.value = some (xs, stop) → ∀ x ∈ xs, P x
  | .error _ => True

theorem Yields.append {α : Type} {P Q : α → Prop} {xs : List α}
    {x : Except NumeralError (Parsed (Option (List α × Nat)) ts)} (h : Yields P x)
    (hxs : ∀ a ∈ xs, Q a) (hle : ts.length ≤ us.length) (hq : ∀ a, P a → Q a) :
    Yields Q (x.map (Parsed.lift (Option.map fun (ys, stop) => (xs ++ ys, stop)) hle)) := by
  cases x with
  | error e => trivial
  | ok p =>
    intro zs stop hzs
    obtain ⟨⟨ys, _⟩, hys, heq⟩ := Option.map_eq_some_iff.1 hzs
    obtain ⟨rfl, rfl⟩ := Prod.mk.inj heq
    intro a ha
    rcases List.mem_append.1 ha with ha | ha
    · exact hxs a ha
    · exact hq a (h ys _ hys a ha)

theorem Yields.lift {α : Type} {P Q : α → Prop}
    {x : Except NumeralError (Parsed (Option (List α × Nat)) ts)} (h : Yields P x)
    (hle : ts.length ≤ us.length) (hq : ∀ a, P a → Q a) :
    Yields Q (x.map (Parsed.lift id hle)) := by
  cases x with
  | error e => trivial
  | ok p => exact fun xs stop hxs a ha => hq a (h xs stop hxs a ha)

/-- The elements of an array and the arguments of a call are read among its tokens. -/
theorem yields_readItems (source close : Text) (holes : Bool) (ts : List Token) :
    Yields (FoundIn source ts) (readItems source close holes ts) := by
  cases ts with
  | nil =>
    rw [readItems]
    simp [Yields]
  | cons t rest =>
    rw [readItems]
    split
    · simp [Yields]
    · split
      · simp [Yields]
      · split
        · exact (yields_readItems source close holes rest).lift _
            fun n hn => hn.mono (List.suffix_cons t rest)
        · have hread := within_read source (t :: rest)
          split
          · trivial
          · rename_i p hp
            have hvalue : FoundIn source (t :: rest) p.value :=
              ⟨_, p, List.suffix_refl _, hp, rfl⟩
            rw [hp] at hread
            replace hread : p.rest <:+ t :: rest := hread
            split
            · simp [Yields]
            · rename_i u after hrest
              rw [hrest] at hread
              have hafter : after <:+ t :: rest := (List.suffix_cons u after).trans hread
              have hlength : after.length ≤ rest.length := Nat.le_of_lt_succ hread.length_le
              split
              · have hfirst : ∀ n ∈ [p.value], FoundIn source (t :: rest) n :=
                  List.forall_mem_singleton.2 hvalue
                exact (yields_readItems source close holes after).append hfirst _
                  fun n hn => hn.mono hafter
              · split
                · simpa [Yields] using hvalue
                · simp [Yields]
termination_by ts.length

/-- The member at the beginning of the tokens has its value from them. -/
theorem valueFoundIn_readMember {p : Parsed (Option Member) ts} {m : Member}
    (h : readMember source ts = .ok p) (hm : m ∈ p.value) : ValueFoundIn source ts m := by
  cases ts with
  | nil =>
    rw [readMember] at h
    cases h
    simp at hm
  | cons t rest =>
    rw [readMember.eq_def] at h
    dsimp only at h
    split at h
    · -- a spread has no value
      obtain ⟨q, -, rfl⟩ := Except.map_eq_ok_iff.1 h
      obtain rfl := Option.some.inj hm
      trivial
    · split at h
      · cases rest with
        | nil =>
          cases h
          simp at hm
        | cons u after =>
          dsimp only at h
          split at h
          · obtain ⟨q, hq, rfl⟩ := Except.map_eq_ok_iff.1 h
            obtain rfl := Option.some.inj hm
            exact .inl ⟨after, q, (List.suffix_cons u after).trans (List.suffix_cons t _), hq, rfl⟩
          · split at h
            · cases h
              obtain rfl := Option.some.inj hm
              exact .inr ⟨_, rfl⟩
            · cases h
              simp at hm
      · cases h
        simp at hm

/-- The properties of an object literal have their values from its tokens. -/
theorem yields_readMembers (source : Text) (ts : List Token) :
    Yields (ValueFoundIn source ts) (readMembers source ts) := by
  cases ts with
  | nil =>
    rw [readMembers]
    simp [Yields]
  | cons t rest =>
    rw [readMembers]
    split
    · simp [Yields]
    · split
      · simp [Yields]
      · have hmember := within_readMember source (t :: rest)
        split
        · trivial
        · rename_i p hp
          have hvalue : ∀ m ∈ p.value.toList, ValueFoundIn source (t :: rest) m := by
            intro m hm
            exact valueFoundIn_readMember hp (Option.mem_toList.1 hm)
          rw [hp] at hmember
          replace hmember : p.rest <:+ t :: rest := hmember
          split
          · simp [Yields]
          · rename_i u after hrest
            rw [hrest] at hmember
            have hafter : after <:+ t :: rest := (List.suffix_cons u after).trans hmember
            have hlength : after.length ≤ rest.length := Nat.le_of_lt_succ hmember.length_le
            split
            · exact (yields_readMembers source after).append hvalue _ fun m hm => hm.mono hafter
            · split
              · intro ms stop hms
                obtain ⟨rfl, rfl⟩ := Prod.mk.inj (Option.some.inj hms)
                exact hvalue
              · simp [Yields]
termination_by ts.length

/-! ### What an expression is -/

/-- What an expression that is read at the beginning of the tokens owes them: a text is the first
token, a quotation; an object has the members read behind the first token; what is kept as source
text is the source at its span. -/
def IsDrawn (source : Text) (ts : List Token) : Node → Prop
  | .literal span (.text v) =>
    ∃ t ∈ ts.head?, t.IsQuotation ∧ span = ⟨t.start, t.stop⟩ ∧ v = t.value
  | .object _ members =>
    ∃ p stop, readMembers source ts.tail = .ok p ∧ p.value = some (members, stop)
  | .chain span _ _ text | .verbatim span text => text = source.slice span.start span.stop
  | _ => True

theorem isDrawn_literalName {v : Value} {span : Span} (h : literalName? t.value = some v) :
    IsDrawn source ts (.literal span v) := by
  unfold literalName? at h
  split at h
  · cases h
    trivial
  · split at h
    · cases h
      trivial
    · split at h
      · cases h
        trivial
      · simp at h

theorem isDrawn_readChain {head : Token} {p : Parsed (Option Node) ts} {n : Node}
    (h : readChain source head ts = .ok p) (hn : n ∈ p.value) : IsDrawn source us n := by
  rw [readChain] at h
  obtain ⟨q, -, rfl⟩ := Except.map_eq_ok_iff.1 h
  obtain ⟨⟨segments, stop⟩, -, rfl⟩ := Option.map_eq_some_iff.1 hn
  rfl

theorem isDrawn_readPrimary {p : Parsed (Option Node) ts} {n : Node}
    (h : readPrimary source ts = .ok p) (hn : n ∈ p.value) : IsDrawn source ts n := by
  cases ts with
  | nil =>
    rw [readPrimary] at h
    cases h
    simp at hn
  | cons t rest =>
    rw [readPrimary.eq_def] at h
    dsimp only at h
    split at h
    · rename_i hkind
      cases h
      obtain rfl := Option.some.inj hn
      exact ⟨t, rfl, .inl hkind, rfl, rfl⟩
    · rename_i hkind
      cases h
      obtain rfl := Option.some.inj hn
      exact ⟨t, rfl, .inr hkind, rfl, rfl⟩
    · split at h
      · simp at h
      · cases h
        obtain rfl := Option.some.inj hn
        trivial
    · split at h
      · cases rest with
        | nil =>
          cases h
          simp at hn
        | cons num rest =>
          dsimp only at h
          split at h
          · split at h
            · simp at h
            · cases h
              obtain rfl := Option.some.inj hn
              trivial
          · cases h
            simp at hn
      · split at h
        · obtain ⟨q, -, rfl⟩ := Except.map_eq_ok_iff.1 h
          obtain ⟨⟨ns, stop⟩, -, rfl⟩ := Option.map_eq_some_iff.1 hn
          trivial
        · split at h
          · obtain ⟨q, hq, rfl⟩ := Except.map_eq_ok_iff.1 h
            obtain ⟨⟨ms, stop⟩, hms, rfl⟩ := Option.map_eq_some_iff.1 hn
            exact ⟨q, stop, hq, hms⟩
          · cases h
            simp at hn
    · split at h
      · rename_i v hv
        split at h
        · obtain ⟨q, hq, rfl⟩ := Except.map_eq_ok_iff.1 h
          exact isDrawn_readChain hq hn
        · cases h
          obtain rfl := Option.some.inj hn
          exact isDrawn_literalName hv
      · obtain ⟨q, hq, rfl⟩ := Except.map_eq_ok_iff.1 h
        exact isDrawn_readChain hq hn
    · cases h
      simp at hn

/-- Every expression is drawn from the tokens that it is read from. -/
theorem isDrawn_read {p : Parsed Node ts} (h : read source ts = .ok p) :
    IsDrawn source ts p.value := by
  rw [read] at h
  split at h
  · simp at h
  · rename_i q hq
    split at h
    · cases h
      rfl
    · rename_i node hnode
      split at h
      · cases h
        exact isDrawn_readPrimary hq hnode
      · cases h
        rfl

end Expr

end Scaffold
