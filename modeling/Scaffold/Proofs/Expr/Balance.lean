import Scaffold.Proofs.Expr.Reading

/-!
# Balanced tokens

The brackets of an expression are nested, and commas and semicolons stand between brackets only
(`Balanced`).  A `<` compares: it stands where an operator may stand (`Place`), and not where it
would open a list of type parameters.

* Balanced tokens are passed over as they are (`Balanced.skipBalanced`).
* What stands between two brackets is an expression, or several parts with separators between them
  (`Balanced.split`).
-/

namespace Scaffold

namespace Expr

/-! ### Places -/

/-- Where a token stands. -/
inductive Place where
  /-- At the beginning of a member of an object. -/
  | member
  /-- Behind the key of a member. -/
  | key
  /-- Where an operand is expected. -/
  | operand
  /-- Anywhere else, such as behind an operand. -/
  | operator
  deriving DecidableEq

/-- The token can be the key of a member. -/
abbrev IsKey (t : Token) : Prop := t.kind = .ident ∨ t.kind = .string ∨ t.kind = .number

/-- The place behind a token. -/
def Place.next (p : Place) (t : Token) : Place :=
  if expectsOperand t = true ∨ t.isPunct "..." = true then .operand
  else if p = .member ∧ IsKey t then .key
  else .operator

theorem Place.next_ne_operator {p : Place} {t : Token} (h : expectsOperand t = true) :
    p.next t ≠ .operator := by
  rw [next, if_pos (.inl h)]
  nofun

/-- What tokens make up. -/
inductive Region where
  /-- One expression. -/
  | expression
  /-- The items between brackets or parentheses. -/
  | items
  /-- The members between braces. -/
  | members
  deriving DecidableEq

/-- The place that a part of the region begins at. -/
def Region.start : Region → Place
  | .members => .member
  | _ => .operand

theorem Region.start_ne_operator (w : Region) : w.start ≠ .operator := by
  cases w <;> nofun

/-- What stands behind an opening bracket. -/
def Region.inside (opener : Token) : Region :=
  if opener.value = "\x7b" then .members else .items

/-! ### Nesting -/

/-- The tokens are an opening bracket and the closing bracket of its sort. -/
inductive Brackets : Token → Token → Prop
  /-- Parentheses. -/
  | parentheses {o c : Token} (ho : o.isPunct "(" = true) (hc : c.isPunct ")" = true) : Brackets o c
  /-- Square brackets. -/
  | square {o c : Token} (ho : o.isPunct "[" = true) (hc : c.isPunct "]" = true) : Brackets o c
  /-- Braces. -/
  | braces {o c : Token} (ho : o.isPunct "\x7b" = true) (hc : c.isPunct "\x7d" = true) :
      Brackets o c

/-- The token is neither a bracket nor a separator, and not the end of the source. -/
structure IsPlain (t : Token) : Prop where
  /-- Not the end. -/
  kind : t.kind ≠ .eof
  /-- No opening bracket. -/
  opener : t.kind = .punct → closerOf? t.value = none
  /-- No closing bracket. -/
  closer : t.kind = .punct → isCloser t.value = false
  /-- No separator. -/
  separator : t.kind = .punct → ¬ (t.value = "," ∨ t.value = ";")

instance : DecidablePred IsPlain := fun t =>
  decidable_of_iff (t.kind ≠ .eof ∧ (t.kind = .punct → closerOf? t.value = none) ∧
    (t.kind = .punct → isCloser t.value = false) ∧
      (t.kind = .punct → ¬ (t.value = "," ∨ t.value = ";")))
    ⟨fun ⟨h₁, h₂, h₃, h₄⟩ => ⟨h₁, h₂, h₃, h₄⟩, fun h => ⟨h.kind, h.opener, h.closer, h.separator⟩⟩

theorem isPlain_of_ne_punct {t : Token} (hpunct : t.kind ≠ .punct) (heof : t.kind ≠ .eof) :
    IsPlain t :=
  ⟨heof, fun h => absurd h hpunct, fun h => absurd h hpunct, fun h => absurd h hpunct⟩

theorem IsPlain.not_opener {t : Token} (h : IsPlain t) (mark : Text)
    (hmark : (closerOf? mark).isSome = true) : t.isPunct mark = false := by
  refine Bool.eq_false_iff.2 fun hp => ?_
  obtain ⟨hkind, hvalue⟩ := isPunct_eq_true.1 hp
  rw [← hvalue, h.opener hkind] at hmark
  cases hmark

/-- The tokens are balanced: their brackets are nested, separators stand between brackets only, and
no `<` begins type parameters. -/
inductive Balanced : Region → Place → List Token → Prop
  /-- No tokens. -/
  | nil {w : Region} {p : Place} : Balanced w p []
  /-- A token that is neither a bracket nor a separator. -/
  | plain {w : Region} {p : Place} {t : Token} {ts : List Token} (ht : IsPlain t)
    (hless : t.isPunct "<" = true → p = .operator) (h : Balanced w (p.next t) ts) :
    Balanced w p (t :: ts)
  /-- A comma, behind which another part begins. -/
  | comma {w : Region} {p : Place} {t : Token} {ts : List Token} (hw : w ≠ .expression)
    (ht : t.isPunct "," = true) (h : Balanced w w.start ts) : Balanced w p (t :: ts)
  /-- A semicolon. -/
  | semicolon {w : Region} {p : Place} {t : Token} {ts : List Token} (hw : w ≠ .expression)
    (ht : t.isPunct ";" = true) (h : Balanced w .operator ts) : Balanced w p (t :: ts)
  /-- Brackets around balanced tokens. -/
  | group {w : Region} {p : Place} {opener closer : Token} {body ts : List Token}
    (hbrackets : Brackets opener closer)
    (hbody : Balanced (.inside opener) (Region.inside opener).start body)
    (h : Balanced w .operator ts) : Balanced w p (opener :: (body ++ closer :: ts))

variable {w : Region} {p : Place} {stack : List Text} {operand : Bool} {t : Token}
  {ts us rest : List Token}

/-- Items without brackets and commas are balanced, if no `<` is among them. -/
theorem balanced_of_plain {p : Place}
    (hplain : ∀ t ∈ us, IsPlain t ∨ t.isPunct ";" = true)
    (hless : ∀ t ∈ us, t.isPunct "<" = false) :
    Balanced .items p us := by
  induction us generalizing p with
  | nil => exact .nil
  | cons t us ih =>
    rw [List.forall_mem_cons] at hplain hless
    rcases hplain.1 with ht | ht
    · exact .plain ht (fun h => nomatch hless.1.symm.trans h) (ih hplain.2 hless.2)
    · exact .semicolon nofun ht (ih hplain.2 hless.2)

/-! ### Passing over balanced tokens -/

theorem awaited_of_isPlain (ht : IsPlain t) (hless : t.isPunct "<" = true → operand = false)
    (hstack : stack.head? ≠ some ">") : awaited stack operand t = some stack := by
  unfold awaited
  by_cases hkind : t.kind = .punct
  · have hopen : ¬ (t.value = "<" ∧ operand = true) := fun ⟨hvalue, hop⟩ => by
      rw [hless (isPunct_eq_true.2 ⟨hkind, hvalue⟩)] at hop
      cases hop
    rw [if_neg ht.kind, if_pos hkind, if_neg hopen, if_neg fun h => hstack h.2, ht.opener hkind]
    simp only [ht.closer hkind, Bool.false_eq_true, if_false]
    rw [if_neg fun h => ht.separator hkind h.1]
  · rw [if_neg ht.kind, if_neg hkind]

theorem awaited_of_separator (hkind : t.kind = .punct) (ht : t.value = "," ∨ t.value = ";")
    (hstack : stack ≠ []) : awaited stack operand t = some stack := by
  unfold awaited
  rcases ht with ht | ht <;> simp +decide [hkind, ht, hstack, closerOf?, isCloser]

theorem awaited_of_brackets {o c : Token} (h : Brackets o c) (stack : List Text) (operand : Bool) :
    awaited stack operand o = some (c.value :: stack) ∧
      awaited (c.value :: stack) operand c = some stack := by
  cases h with
  | parentheses ho hc | square ho hc | braces ho hc =>
    obtain ⟨hokind, hovalue⟩ := isPunct_eq_true.1 ho
    obtain ⟨hckind, hcvalue⟩ := isPunct_eq_true.1 hc
    unfold awaited
    simp +decide [hokind, hovalue, hckind, hcvalue, closerOf?, isCloser]

theorem Brackets.expectsOperand {o c : Token} (h : Brackets o c) :
    expectsOperand o = true ∧ expectsOperand c = false := by
  cases h with
  | parentheses ho hc | square ho hc | braces ho hc =>
    obtain ⟨hokind, hovalue⟩ := isPunct_eq_true.1 ho
    obtain ⟨hckind, hcvalue⟩ := isPunct_eq_true.1 hc
    simp +decide [Expr.expectsOperand, hokind, hovalue, hckind, hcvalue]

theorem Brackets.opens {o c : Token} (h : Brackets o c) :
    o.kind = .punct ∧ c.kind = .punct ∧ closerOf? o.value = some c.value := by
  cases h with
  | parentheses ho hc | square ho hc | braces ho hc =>
    obtain ⟨hokind, hovalue⟩ := isPunct_eq_true.1 ho
    obtain ⟨hckind, hcvalue⟩ := isPunct_eq_true.1 hc
    rw [hovalue, hcvalue]
    exact ⟨hokind, hckind, by decide⟩

theorem Brackets.closer_of_opener {o c : Token} (h : Brackets o c) {opener closer : Text}
    (ho : o.value = opener) (hcloser : closerOf? opener = some closer) :
    c.isPunct closer = true := by
  obtain ⟨-, hkind, hvalue⟩ := h.opens
  rw [ho, hcloser] at hvalue
  exact isPunct_eq_true.2 ⟨hkind, (Option.some.inj hvalue).symm⟩

/-- An opening bracket is no other mark. -/
theorem Brackets.not_isPunct {o c : Token} (h : Brackets o c) (mark : Text)
    (hmark : closerOf? mark = none) : o.isPunct mark = false := by
  refine Bool.eq_false_iff.2 fun hp => ?_
  have hcloses := h.opens.2.2
  rw [(isPunct_eq_true.1 hp).2, hmark] at hcloses
  cases hcloses

/-- An awaited closing bracket is no `>`. -/
theorem Brackets.closer_ne {o c : Token} (h : Brackets o c) : c.value ≠ ">" := by
  cases h with
  | parentheses ho hc | square ho hc | braces ho hc =>
    rw [(isPunct_eq_true.1 hc).2]
    decide

theorem Brackets.closer_not_less {o c : Token} (h : Brackets o c) : c.isPunct "<" = false := by
  cases h with
  | parentheses ho hc | square ho hc | braces ho hc =>
    simp +decide [Token.isPunct, (isPunct_eq_true.1 hc).2]

/-- Only a `<` depends on what stands before it. -/
theorem skipBalanced_of_not_less (ht : t.isPunct "<" = false) (ts : List Token) :
    skipBalanced stack operand (t :: ts) = skipBalanced stack false (t :: ts) := by
  have hawaited : awaited stack operand t = awaited stack false t := by
    unfold awaited
    by_cases hkind : t.kind = .punct
    · have hvalue : ¬ t.value = "<" := fun hvalue => by
        rw [isPunct_eq_true.2 ⟨hkind, hvalue⟩] at ht
        cases ht
      simp only [hvalue, false_and, if_false]
    · simp only [hkind, if_false]
  rw [skipBalanced, skipBalanced, hawaited]

theorem skipBalanced_cons {stack' : List Text} (h : awaited stack operand t = some stack')
    (ts : List Token) : skipBalanced stack operand (t :: ts) =
      (t :: (skipBalanced stack' (expectsOperand t) ts).1,
        (skipBalanced stack' (expectsOperand t) ts).2) := by
  rw [skipBalanced, h]

/-- **Balanced tokens are passed over**, inside the brackets that are open and up to what stands
behind the tokens. -/
theorem Balanced.skipBalanced (h : Balanced w p us) (hoperand : operand = true → p ≠ .operator)
    (hstack : stack.head? ≠ some ">") (hw : w ≠ .expression → stack ≠ [])
    (ht : t.isPunct "<" = false) (ts : List Token) :
    skipBalanced stack operand (us ++ t :: ts) =
      (us ++ (Expr.skipBalanced stack false (t :: ts)).1,
        (Expr.skipBalanced stack false (t :: ts)).2) := by
  induction h generalizing stack operand t ts with
  | nil => rw [List.nil_append, skipBalanced_of_not_less ht, List.nil_append]
  | @plain w p u us hu hless _ ih =>
    have hawaited : awaited stack operand u = some stack :=
      awaited_of_isPlain hu (fun hl => Bool.eq_false_iff.2 fun ho => hoperand ho (hless hl)) hstack
    rw [List.cons_append, skipBalanced_cons hawaited,
      ih (fun ho => Place.next_ne_operator ho) hstack hw ht ts, List.cons_append]
  | @comma w p u us hreg hu _ ih =>
    obtain ⟨hkind, hvalue⟩ := isPunct_eq_true.1 hu
    rw [List.cons_append, skipBalanced_cons (awaited_of_separator hkind (.inl hvalue) (hw hreg)),
      ih (fun _ => w.start_ne_operator) hstack hw ht ts, List.cons_append]
  | @semicolon w p u us hreg hu _ ih =>
    obtain ⟨hkind, hvalue⟩ := isPunct_eq_true.1 hu
    have hexpects : expectsOperand u = false := by
      simp +decide [expectsOperand, hvalue]
    rw [List.cons_append, skipBalanced_cons (awaited_of_separator hkind (.inr hvalue) (hw hreg)),
      ih (fun ho => absurd ho (by simp [hexpects])) hstack hw ht ts, List.cons_append]
  | @group w p o c body us hbrackets _ _ ihbody ih =>
    have hopen := (awaited_of_brackets hbrackets stack operand).1
    have hclose := (awaited_of_brackets hbrackets stack false).2
    have hstack' : (c.value :: stack).head? ≠ some ">" := by
      simp [hbrackets.closer_ne]
    have hafter : ∀ ho : expectsOperand c = true, Place.operator ≠ .operator := fun ho => by
      rw [hbrackets.expectsOperand.2] at ho
      cases ho
    rw [List.cons_append, skipBalanced_cons hopen, List.append_assoc, List.cons_append,
      ihbody (fun _ => Region.start_ne_operator _) hstack' (fun _ => List.cons_ne_nil _ _)
        hbrackets.closer_not_less, skipBalanced_cons hclose, ih hafter hstack hw ht ts]
    simp

theorem awaited_of_stops (ht : Stops t.lexeme) : awaited [] operand t = none := by
  unfold awaited
  rcases ht with hkind | ⟨hkind, hvalue⟩
  · exact if_pos hkind
  · have hkind : t.kind = .punct := hkind
    have hvalue : t.value = "," ∨ t.value = ";" ∨ isCloser t.value = true := hvalue
    have hcloser : isCloser t.value = true → t.value = ")" ∨ t.value = "]" ∨ t.value = "\x7d" := by
      simp [isCloser, or_assoc]
    rcases hvalue with hvalue | hvalue | hvalue
    · simp +decide [hkind, hvalue, closerOf?, isCloser]
    · simp +decide [hkind, hvalue, closerOf?, isCloser]
    · rcases hcloser hvalue with hvalue | hvalue | hvalue <;>
        simp +decide [hkind, hvalue, closerOf?, isCloser]

theorem not_less_of_stops (ht : Stops t.lexeme) : t.isPunct "<" = false := by
  refine Bool.eq_false_iff.2 fun h => ?_
  rw [isPunct_iff.1 h] at ht
  exact absurd ht (by decide)

/-- The tokens of an expression are passed over up to the token that ends it. -/
theorem Balanced.skip_expression (h : Balanced .expression p us) (hp : p ≠ .operator)
    (ht : Stops t.lexeme) (ts : List Token) :
    Expr.skipBalanced [] true (us ++ t :: ts) = (us, t :: ts) := by
  rw [h.skipBalanced (fun _ => hp) (by simp) (fun hw => absurd rfl hw) (not_less_of_stops ht),
    Expr.skipBalanced, awaited_of_stops ht]
  simp

/-! ### Parts -/

/-- Balanced tokens are an expression, or a first part up to a separator and what stands behind
that. -/
theorem Balanced.split (h : Balanced w p ts) : Balanced .expression p ts ∨
    ∃ us t vs, ts = us ++ t :: vs ∧ Balanced .expression p us ∧ w ≠ .expression ∧
      (t.isPunct "," = true ∧ Balanced w w.start vs ∨ t.isPunct ";" = true) := by
  induction h with
  | nil => exact .inl .nil
  | plain ht hless _ ih =>
    rcases ih with h | ⟨us, s, vs, rfl, hus, hrest⟩
    · exact .inl (.plain ht hless h)
    · exact .inr ⟨_ :: us, s, vs, rfl, .plain ht hless hus, hrest⟩
  | comma hw ht h _ => exact .inr ⟨[], _, _, rfl, .nil, hw, .inl ⟨ht, h⟩⟩
  | semicolon hw ht _ _ => exact .inr ⟨[], _, _, rfl, .nil, hw, .inr ht⟩
  | @group w p o c body us hbrackets hbody _ _ ih =>
    rcases ih with h | ⟨us, s, vs, rfl, hus, hrest⟩
    · exact .inl (.group hbrackets hbody h)
    · exact .inr ⟨o :: (body ++ c :: us), s, vs, by simp, .group hbrackets hbody hus, hrest⟩

end Expr

end Scaffold
