import Scaffold.Proofs.Expr.Balance
import Scaffold.Proofs.Outcome

/-!
# The steps of the readers

What a reader answers, without the bound on the tokens that are left: a value and these tokens
(`outcome`), or nothing (`found`).  Each step of a reader is an equation between such answers.

The items between brackets and the members between braces are read alike (`ReadsParts`).
-/

namespace Scaffold

namespace Expr

variable {α β : Type} {ts us : List Token}

/-- What was read, and the tokens that are left. -/
def outcome (x : Except NumeralError (Parsed α ts)) : Except NumeralError (α × List Token) :=
  x.map fun p => (p.value, p.rest)

/-- What was found, if anything, and the tokens that are left. -/
def found (x : Except NumeralError (Parsed (Option α) ts)) :
    Except NumeralError (Option (α × List Token)) :=
  x.map fun p => p.value.map (·, p.rest)

theorem outcome_lift (x : Except NumeralError (Parsed α ts)) (f : α → β)
    (h : ts.length ≤ us.length) :
    outcome (x.map (Parsed.lift f h)) = (outcome x).map fun r => (f r.1, r.2) := by
  cases x <;> rfl

theorem found_lift (x : Except NumeralError (Parsed (Option α) ts)) (f : α → β)
    (h : ts.length ≤ us.length) : found (x.map (Parsed.lift (Option.map f) h)) =
      (found x).map (Option.map fun r => (f r.1, r.2)) := by
  cases x with
  | error e => rfl
  | ok p => cases hp : p.value <;> simp [found, Except.map, Parsed.lift, hp]

theorem found_lift_id (x : Except NumeralError (Parsed (Option α) ts))
    (h : ts.length ≤ us.length) : found (x.map (Parsed.lift id h)) = found x := by
  cases x <;> rfl

/-! ### Expressions -/

variable {source close : Text} {t u : Token} {rest : List Token}

/-- The tokens up to the end of the expression, as it stands in the source. -/
def verbatim (source : Text) (ts : List Token) : Node × List Token :=
  ((readVerbatim source ts).value, (readVerbatim source ts).rest)

/-- The expression at the beginning of the tokens, if `n` was found before `rest`: it is `n` if it
ends there, and is kept verbatim otherwise. -/
def settle (source : Text) (ts : List Token) (n : Node) (rest : List Token) : Node × List Token :=
  if atTerminator (skipAsConst rest) = true then (n, skipAsConst rest) else verbatim source ts

theorem outcome_read (source : Text) (ts : List Token) : outcome (read source ts) =
    (found (readPrimary source ts)).map fun
      | none => verbatim source ts
      | some (n, rest) => settle source ts n rest := by
  rw [read]
  cases readPrimary source ts with
  | error e => rfl
  | ok p =>
    cases hp : p.value with
    | none => simp [outcome, found, Except.map, hp, verbatim]
    | some n =>
      by_cases hend : atTerminator (skipAsConst p.rest) = true <;>
        simp [outcome, found, Except.map, hp, settle, verbatim, hend]

theorem found_readPrimary_text (ht : t.kind = .string ∨ t.kind = .template false)
    (rest : List Token) : found (readPrimary source (t :: rest)) =
      .ok (some (.literal ⟨t.start, t.stop⟩ (.text t.value), rest)) := by
  rw [readPrimary.eq_def]
  rcases ht with ht | ht <;> simp only [ht] <;> rfl

theorem found_readPrimary_number (ht : t.kind = .number) (rest : List Token) :
    found (readPrimary source (t :: rest)) = (Numeral.read t.value).map fun n =>
      some (.literal ⟨t.start, t.stop⟩ (.number n), rest) := by
  rw [readPrimary.eq_def]
  simp only [ht]
  cases Numeral.read t.value <;> rfl

/-- A minus sign before a number. -/
theorem found_readPrimary_minus (ht : t.isPunct "-" = true) (hu : u.kind = .number)
    (rest : List Token) : found (readPrimary source (t :: u :: rest)) =
      (Numeral.read u.value).map fun n =>
        some (.literal ⟨t.start, u.stop⟩ (.number n.neg), rest) := by
  obtain ⟨hkind, hvalue⟩ := isPunct_eq_true.1 ht
  rw [readPrimary.eq_def]
  simp only [hkind, hvalue, if_true, hu]
  cases Numeral.read u.value <;> rfl

/-- A minus sign before anything else. -/
theorem found_readPrimary_sign (ht : t.isPunct "-" = true) (hrest : nextKind rest .number = false) :
    found (readPrimary source (t :: rest)) = .ok none := by
  obtain ⟨hkind, hvalue⟩ := isPunct_eq_true.1 ht
  rw [readPrimary.eq_def]
  simp only [hkind, hvalue, if_true]
  cases rest with
  | nil => rfl
  | cons u rest =>
    have hu : ¬ u.kind = .number := by simpa [nextKind] using hrest
    simp only [hu, if_false]
    rfl

theorem found_readPrimary_array (ht : t.isPunct "[" = true) (rest : List Token) :
    found (readPrimary source (t :: rest)) = (found (readItems source "]" true rest)).map
      (Option.map fun r => (.array ⟨t.start, r.1.2⟩ r.1.1, r.2)) := by
  obtain ⟨hkind, hvalue⟩ := isPunct_eq_true.1 ht
  rw [readPrimary.eq_def]
  simp only [hkind, hvalue]
  rw [if_neg (by decide), if_pos trivial, found_lift]

theorem found_readPrimary_object (ht : t.isPunct "\x7b" = true) (rest : List Token) :
    found (readPrimary source (t :: rest)) = (found (readMembers source rest)).map
      (Option.map fun r => (.object ⟨t.start, r.1.2⟩ r.1.1, r.2)) := by
  obtain ⟨hkind, hvalue⟩ := isPunct_eq_true.1 ht
  rw [readPrimary.eq_def]
  simp only [hkind, hvalue]
  rw [if_neg (by decide), if_neg (by decide), if_pos trivial, found_lift]

/-- No other mark begins a literal or a chain. -/
theorem found_readPrimary_punct (hkind : t.kind = .punct)
    (hvalue : t.value ∉ [Text.ofString "-", "[", "\x7b"]) (rest : List Token) :
    found (readPrimary source (t :: rest)) = .ok none := by
  simp only [List.mem_cons, List.not_mem_nil, or_false, not_or] at hvalue
  rw [readPrimary.eq_def]
  simp only [hkind, hvalue.1, hvalue.2.1, hvalue.2.2, if_false]
  rfl

/-- Neither does a regular expression or a template with substitutions. -/
theorem found_readPrimary_other (ht : t.kind ∈ [TokenKind.template true, .regex, .eof])
    (rest : List Token) : found (readPrimary source (t :: rest)) = .ok none := by
  rw [readPrimary.eq_def]
  simp only [List.mem_cons, List.not_mem_nil, or_false] at ht
  rcases ht with ht | ht | ht <;> simp only [ht] <;> rfl

/-- The name of a literal, unless it begins a chain. -/
theorem found_readPrimary_name (ht : t.kind = .ident) {v : Value}
    (hv : literalName? t.value = some v)
    (hrest : (nextIs rest "." || nextIs rest "(") = false) :
    found (readPrimary source (t :: rest)) =
      .ok (some (.literal ⟨t.start, t.stop⟩ v, rest)) := by
  rw [readPrimary.eq_def]
  simp only [ht, hv, hrest]
  rfl

theorem found_readPrimary_chain (ht : t.kind = .ident)
    (h : literalName? t.value = none ∨ (nextIs rest "." || nextIs rest "(") = true) :
    found (readPrimary source (t :: rest)) = (found (readSegments source t.stop rest)).map
      (Option.map fun r => (.chain ⟨t.start, r.1.2⟩ t.value r.1.1 (source.slice t.start r.1.2),
        r.2)) := by
  rw [readPrimary.eq_def]
  simp only [ht]
  cases hv : literalName? t.value with
  | none =>
    simp only [found_lift_id]
    rw [readChain, found_lift]
  | some v =>
    have hnext := h.resolve_left (by simp [hv])
    simp only [hnext, if_true, found_lift_id]
    rw [readChain, found_lift]

/-! ### Links -/

/-- A name behind a point. -/
theorem found_readSegments_access {stop : Nat} (ht : t.isPunct "." = true ∨ t.isPunct "?." = true)
    (hu : u.kind = .ident) (rest : List Token) :
    found (readSegments source stop (t :: u :: rest)) =
      (found (readSegments source u.stop rest)).map
      (Option.map fun r => ((.access u.value :: r.1.1, r.1.2), r.2)) := by
  have hnext : ((t.isPunct "." || t.isPunct "?.") && nextKind (u :: rest) .ident) = true := by
    rw [Bool.and_eq_true, Bool.or_eq_true]
    exact ⟨ht, decide_eq_true hu⟩
  rw [readSegments.eq_def]
  simp only [hnext, if_true]
  exact found_lift _ _ _

theorem found_readSegments_call {stop : Nat} (ht : t.isPunct "(" = true) (rest : List Token) :
    found (readSegments source stop (t :: rest)) =
      (found (readItems source ")" false rest)).bind fun
      | none => .ok none
      | some ((ns, stop), rest) => (found (readSegments source stop rest)).map
          (Option.map fun r => ((.call ns :: r.1.1, r.1.2), r.2)) := by
  have hnot : ∀ mark : Text, mark ≠ "(" → t.isPunct mark = false := fun mark hmark =>
    Bool.eq_false_iff.2 fun h =>
      hmark ((isPunct_eq_true.1 h).2.symm.trans (isPunct_eq_true.1 ht).2)
  rw [readSegments.eq_def]
  simp only [hnot "." (by decide), hnot "?." (by decide), hnot "<" (by decide), ht, Bool.or_self,
    Bool.false_and, Bool.false_eq_true, if_false, if_true]
  cases readItems source ")" false rest with
  | error e => rfl
  | ok p =>
    cases hp : p.value with
    | none => simp [found, Except.map, Except.bind, hp]
    | some r =>
      simp only [found, Except.map, Except.bind, hp, Option.map_some]
      exact found_lift _ _ _

/-- Where no link begins, the chain ends. -/
theorem found_readSegments_nil {stop : Nat} {ts : List Token}
    (hpoint : ((nextIs ts "." || nextIs ts "?.") && nextKind ts.tail .ident) = false)
    (hless : nextIs ts "<" = true → skipTypeArguments 0 ts = none)
    (hparen : nextIs ts "(" = false) :
    found (readSegments source stop ts) = .ok (some (([], stop), ts)) := by
  cases ts with
  | nil =>
    rw [readSegments]
    rfl
  | cons t rest =>
    have hpoint : ((t.isPunct "." || t.isPunct "?.") && nextKind rest .ident) = false := hpoint
    have hparen : t.isPunct "(" = false := hparen
    have hless : t.isPunct "<" = true → skipTypeArguments 0 (t :: rest) = none := hless
    rw [readSegments.eq_def]
    simp only [hpoint, hparen, Bool.false_eq_true, if_false]
    split
    · split
      · rename_i hl after hafter
        rw [hless hl] at hafter
        cases hafter
      · rfl
    · rfl

/-! ### Parts -/

/-- What is found of a list of parts: the parts, the offset behind its closing bracket and the
tokens behind that. -/
abbrev FoundParts (α : Type) := Except NumeralError (Option ((List α × Nat) × List Token))

/-- How a list goes on behind the parts `as`: with a comma and what `list` finds behind it, or with
the closing bracket. -/
def goOn (close : Text) (list : List Token → FoundParts α) (as : List α) :
    List Token → FoundParts α
  | [] => .ok none
  | u :: rest =>
    if u.isPunct "," = true then
      (list rest).map (Option.map fun r => ((as ++ r.1.1, r.1.2), r.2))
    else if u.isPunct close = true then .ok (some ((as, u.stop), rest))
    else .ok none

/-- The list is read part by part, up to the bracket `close`. -/
structure ReadsParts (close : Text) (part : List Token → Except NumeralError (List α × List Token))
    (list : List Token → FoundParts α) : Prop where
  /-- It ends with the bracket. -/
  ends : ∀ {t : Token} (rest : List Token), t.isPunct close = true →
    list (t :: rest) = .ok (some (([], t.stop), rest))
  /-- Anywhere else it goes on behind a part. -/
  step : ∀ {t : Token} (rest : List Token), t.isPunct close = false → t.kind ≠ .eof →
    list (t :: rest) = (part (t :: rest)).bind fun r => goOn close list r.1 r.2

/-- An item, or the place of one that is left out. -/
def itemPart (source : Text) (holes : Bool) (ts : List Token) :
    Except NumeralError (List Node × List Token) :=
  if (holes && nextIs ts ",") = true then .ok ([], ts)
  else (outcome (read source ts)).map fun r => ([r.1], r.2)

/-- A member, or what is passed over in the place of one. -/
def memberPart (source : Text) (ts : List Token) :
    Except NumeralError (List Member × List Token) :=
  (outcome (readMember source ts)).map fun r => (r.1.toList, r.2)

theorem readsParts_items (source close : Text) (holes : Bool) : ReadsParts close
    (itemPart source holes) fun ts => found (readItems source close holes ts) where
  ends rest ht := by
    rw [readItems, if_pos ht]
    rfl
  step {t} rest ht heof := by
    rw [readItems, if_neg (by simp [ht]), if_neg heof, itemPart]
    have hnext : nextIs (t :: rest) "," = t.isPunct "," := rfl
    by_cases hhole : (holes && t.isPunct ",") = true
    · rw [hnext, if_pos hhole, if_pos hhole, found_lift_id]
      simp only [Except.bind, goOn, (Bool.and_eq_true_iff.1 hhole).2, if_true, List.nil_append]
      cases found (readItems source close holes rest) with
      | error e => rfl
      | ok r => cases r <;> rfl
    · rw [hnext, if_neg hhole, if_neg hhole]
      cases read source (t :: rest) with
      | error e => rfl
      | ok p =>
        obtain ⟨n, more, hle⟩ := p
        cases more with
        | nil => rfl
        | cons u more =>
          simp only [outcome, Except.map, Except.bind, goOn]
          split_ifs
          · exact found_lift _ _ _
          · rfl
          · rfl

theorem readsParts_members (source : Text) : ReadsParts "\x7d" (memberPart source)
    fun ts => found (readMembers source ts) where
  ends rest ht := by
    rw [readMembers, if_pos ht]
    rfl
  step {t} rest ht heof := by
    rw [readMembers, if_neg (by simp [ht]), if_neg heof, memberPart]
    cases readMember source (t :: rest) with
    | error e => rfl
    | ok p =>
      obtain ⟨m, more, hle⟩ := p
      cases more with
      | nil => rfl
      | cons u more =>
        simp only [outcome, Except.map, Except.bind, goOn]
        split_ifs
        · exact found_lift _ _ _
        · rfl
        · rfl

/-! ### Members -/

theorem IsKey.not_spread (h : IsKey t) : t.isPunct "..." = false := by
  refine Bool.eq_false_iff.2 fun hspread => ?_
  simp [IsKey, (isPunct_eq_true.1 hspread).1] at h

theorem outcome_readMember_spread (ht : t.isPunct "..." = true) (rest : List Token) :
    outcome (readMember source (t :: rest)) = (outcome (read source rest)).map fun r =>
      (some (.spread (source.slice t.start r.1.span.stop)), r.2) := by
  rw [readMember.eq_def]
  dsimp only
  rw [if_pos ht, outcome_lift]

theorem outcome_readMember_property (ht : IsKey t) (hu : u.isPunct ":" = true)
    (rest : List Token) : outcome (readMember source (t :: u :: rest)) =
      (outcome (read source rest)).map fun r => (some (.property t.value r.1), r.2) := by
  rw [readMember, if_neg (Bool.eq_false_iff.1 ht.not_spread), if_pos ht]
  simp only [hu, if_true]
  exact outcome_lift _ _ _

/-- A key alone stands for the variable of its name. -/
theorem outcome_readMember_shorthand (ht : IsKey t)
    (hu : u.isPunct "," = true ∨ u.isPunct "\x7d" = true) (rest : List Token) :
    outcome (readMember source (t :: u :: rest)) =
      .ok (some (.property t.value (.verbatim ⟨t.start, t.stop⟩ t.value)), u :: rest) := by
  have hcolon : u.isPunct ":" = false := Bool.eq_false_iff.2 fun h => by
    have hvalue := (isPunct_eq_true.1 h).2
    rcases hu with hu | hu <;> exact absurd (hvalue.symm.trans (isPunct_eq_true.1 hu).2) (by decide)
  rw [readMember, if_neg (Bool.eq_false_iff.1 ht.not_spread), if_pos ht]
  simp only [hcolon, Bool.false_eq_true, if_false, hu, if_true]
  rfl

/-- Anything else behind a key is passed over. -/
theorem outcome_readMember_method (ht : IsKey t) (hcolon : u.isPunct ":" = false)
    (hend : ¬ (u.isPunct "," = true ∨ u.isPunct "\x7d" = true)) (rest : List Token) :
    outcome (readMember source (t :: u :: rest)) =
      .ok (none, (skipBalanced [] true (u :: rest)).2) := by
  rw [readMember, if_neg (Bool.eq_false_iff.1 ht.not_spread), if_pos ht]
  simp only [hcolon, Bool.false_eq_true, if_false, hend]
  rfl

/-- So is what begins with no key. -/
theorem outcome_readMember_other (hspread : t.isPunct "..." = false) (ht : ¬ IsKey t)
    (rest : List Token) : outcome (readMember source (t :: rest)) =
      .ok (none, (skipBalanced [] true (t :: rest)).2) := by
  rw [readMember.eq_def]
  dsimp only
  rw [if_neg (Bool.eq_false_iff.1 hspread), if_neg ht]
  rfl

end Expr

end Scaffold
