import Scaffold.Expr.Basic
import Scaffold.Token.Basic

/-!
# Reading expressions

`Expr.read` reads one expression from the beginning of a token list.  The expression ends at a
comma, a semicolon, an unbalanced closing bracket or the end of the source; what does not have the
form of a literal or a chain is skipped up to there, bracket by bracket, and kept verbatim.

A reader returns what it found together with the tokens behind it (`Parsed`); the remaining list is
never longer than the one it was given, which makes the readers total.  The only error is a number
literal that is no number.

* `Expr.readItems` reads the elements of an array or the arguments of a call, `Expr.readMembers` the
  members of an object, `Expr.readSegments` the links of a chain.
* `Expr.skipBalanced` and `Expr.skipTypeArguments` pass over what is not read.
-/

namespace Scaffold

/-- What was read at the beginning of `ts`, and the tokens behind it. -/
structure Parsed (α : Type) (ts : List Token) where
  /-- What was read. -/
  value : α
  /-- The tokens behind it. -/
  rest : List Token
  /-- No token is added. -/
  le : rest.length ≤ ts.length

namespace Parsed

/-- The same reading seen from a longer list, its value changed by `f`. -/
def lift {α β : Type} {ts us : List Token} (f : α → β) (h : ts.length ≤ us.length)
    (p : Parsed α ts) : Parsed β us :=
  ⟨f p.value, p.rest, Nat.le_trans p.le h⟩

@[simp] theorem value_lift {α β : Type} {ts us : List Token} (f : α → β)
    (h : ts.length ≤ us.length) (p : Parsed α ts) : (p.lift f h).value = f p.value := rfl

@[simp] theorem rest_lift {α β : Type} {ts us : List Token} (f : α → β)
    (h : ts.length ≤ us.length) (p : Parsed α ts) : (p.lift f h).rest = p.rest := rfl

end Parsed

namespace Expr

/-- The first token is the mark `value`. -/
def nextIs (ts : List Token) (value : Text) : Bool := ts.head?.any (·.isPunct value)

/-- The first token is of this kind. -/
def nextKind (ts : List Token) (kind : TokenKind) : Bool := ts.head?.any (·.kind = kind)

/-! ### Passing over tokens -/

/-- The closing bracket of an opening one. -/
def closerOf? (value : Text) : Option Text :=
  if value = "(" then some ")"
  else if value = "[" then some "]"
  else if value = "\x7b" then some "\x7d"
  else none

/-- A closing bracket other than `>`. -/
def isCloser (value : Text) : Bool := value = ")" || value = "]" || value = "\x7d"

/-- The marks after which an operand is expected. -/
def operandMarks : List Text :=
  ["(", "[", "\x7b", ",", ":", "=", "=>", "?", "??", "&&", "||"]

/-- An operand is expected behind the token. -/
def expectsOperand (t : Token) : Bool := t.kind = .punct && operandMarks.contains t.value

/-- The closing brackets that are awaited behind the token, given those awaited before it; `none`
when the expression ends before the token.  A `<` where an operand is expected opens a list of type
parameters and is a comparison anywhere else; a closing bracket that is not the awaited one is
passed over. -/
def awaited (stack : List Text) (operand : Bool) (t : Token) : Option (List Text) :=
  if t.kind = .eof then none
  else if t.kind = .punct then
    if t.value = "<" ∧ operand = true then some (">" :: stack)
    else if t.value = ">" ∧ stack.head? = some ">" then some stack.tail
    else
      match closerOf? t.value with
      | some c => some (c :: stack)
      | none =>
        if isCloser t.value then
          match stack with
          | [] => none
          | c :: stack => some (if c = t.value then stack else c :: stack)
        else if (t.value = "," ∨ t.value = ";") ∧ stack = [] then none
        else some stack
  else some stack

/-- Splits the tokens before the end of the expression that they begin with. -/
def skipBalanced (stack : List Text) (operand : Bool) : List Token → List Token × List Token
  | [] => ([], [])
  | t :: ts =>
    match awaited stack operand t with
    | none => ([], t :: ts)
    | some stack =>
      let (skipped, rest) := skipBalanced stack (expectsOperand t) ts
      (t :: skipped, rest)

/-- Nothing is lost where the tokens are split. -/
theorem skipBalanced_append (stack : List Text) (operand : Bool) (ts : List Token) :
    (skipBalanced stack operand ts).1 ++ (skipBalanced stack operand ts).2 = ts := by
  induction ts generalizing stack operand with
  | nil => rfl
  | cons t ts ih =>
    unfold skipBalanced
    split
    · rfl
    · simpa using ih _ _

theorem length_skipBalanced_le (stack : List Text) (operand : Bool) (ts : List Token) :
    (skipBalanced stack operand ts).2.length ≤ ts.length := by
  conv => rhs; rw [← skipBalanced_append stack operand ts]
  simp

/-- The tokens behind type arguments `<…>`, of which `depth` are open, if a parenthesis follows
them.  A semicolon, an arrow or the end of the source shows that they are none. -/
def skipTypeArguments (depth : Int) : List Token → Option (List Token)
  | [] => none
  | t :: ts =>
    if t.kind = .eof ∨ t.isPunct ";" = true then none
    else if t.isPunct "<" then skipTypeArguments (depth + 1) ts
    else if t.isPunct ">" then
      if depth = 1 then (if nextIs ts "(" then some ts else none)
      else skipTypeArguments (depth - 1) ts
    else if t.isPunct "=>" then none
    else skipTypeArguments depth ts

theorem length_skipTypeArguments {depth : Int} {ts rest : List Token}
    (h : skipTypeArguments depth ts = some rest) : rest.length < ts.length := by
  fun_induction skipTypeArguments depth ts with
  | case1 => simp at h
  | case2 => simp at h
  | case3 _ _ _ _ _ ih => have := ih h; simp only [List.length_cons]; omega
  | case4 =>
    simp only [Option.some.injEq] at h
    subst h
    simp
  | case5 => simp at h
  | case6 _ _ _ _ _ _ _ ih => have := ih h; simp only [List.length_cons]; omega
  | case7 => simp at h
  | case8 _ _ _ _ _ _ _ ih => have := ih h; simp only [List.length_cons]; omega

/-- The tokens behind `as const`, if the list begins with it. -/
def skipAsConst : List Token → List Token
  | a :: c :: ts => if a.isIdent "as" ∧ c.isIdent "const" then ts else a :: c :: ts
  | ts => ts

theorem length_skipAsConst_le (ts : List Token) : (skipAsConst ts).length ≤ ts.length := by
  unfold skipAsConst
  split
  · split
    · simp only [List.length_cons]; omega
    · simp
  · simp

/-- The expression ends before the first token. -/
def atTerminator : List Token → Bool
  | [] => true
  | t :: _ =>
    t.kind = .eof ||
      t.kind = .punct && (t.value = "," || t.value = ";" || isCloser t.value)

/-- The offset where the first token begins. -/
def startOf (ts : List Token) : Nat := (ts.head?.map (·.start)).getD 0

/-- The expression at the beginning of the tokens, kept verbatim. -/
def readVerbatim (source : Text) (ts : List Token) : Parsed Node ts :=
  let (skipped, _) := skipBalanced [] true ts
  let start := startOf ts
  let stop := (skipped.getLast?.map (·.stop)).getD start
  ⟨.verbatim ⟨start, stop⟩ (source.slice start stop), (skipBalanced [] true ts).2,
    length_skipBalanced_le [] true ts⟩

/-! ### Reading -/

/-- The values of the names that are literals, unless a member access or a call follows. -/
def literalName? (value : Text) : Option Value :=
  if value = "true" then some (.bool true)
  else if value = "false" then some (.bool false)
  else if value = "null" ∨ value = "undefined" then some .null
  else none

mutual

/-- The expression at the beginning of the tokens. -/
def read (source : Text) (ts : List Token) : Except NumeralError (Parsed Node ts) :=
  match readPrimary source ts with
  | .error e => .error e
  | .ok p =>
    match p.value with
    | none => .ok (readVerbatim source ts)
    | some node =>
      if atTerminator (skipAsConst p.rest) then
        .ok ⟨node, skipAsConst p.rest, Nat.le_trans (length_skipAsConst_le _) p.le⟩
      else .ok (readVerbatim source ts)
termination_by (ts.length, 2)

/-- The literal or chain at the beginning of the tokens, if there is one. -/
def readPrimary (source : Text) (ts : List Token) :
    Except NumeralError (Parsed (Option Node) ts) :=
  match ts with
  | [] => .ok ⟨none, [], Nat.le_refl _⟩
  | t :: rest =>
    match t.kind with
    | .string | .template false =>
      .ok ⟨some (.literal ⟨t.start, t.stop⟩ (.text t.value)), rest, by simp⟩
    | .number =>
      match Numeral.read t.value with
      | .error e => .error e
      | .ok n => .ok ⟨some (.literal ⟨t.start, t.stop⟩ (.number n)), rest, by simp⟩
    | .punct =>
      if t.value = "-" then
        match rest with
        | [] => .ok ⟨none, [t], by simp⟩
        | num :: rest =>
          if num.kind = .number then
            match Numeral.read num.value with
            | .error e => .error e
            | .ok n =>
              .ok ⟨some (.literal ⟨t.start, num.stop⟩ (.number n.neg)), rest,
                by simp only [List.length_cons]; omega⟩
          else .ok ⟨none, t :: num :: rest, Nat.le_refl _⟩
      else if t.value = "[" then
        (readItems source "]" true rest).map
          (Parsed.lift (Option.map fun (ns, stop) => .array ⟨t.start, stop⟩ ns) (by simp))
      else if t.value = "\x7b" then
        (readMembers source rest).map
          (Parsed.lift (Option.map fun (ms, stop) => .object ⟨t.start, stop⟩ ms) (by simp))
      else .ok ⟨none, t :: rest, Nat.le_refl _⟩
    | .ident =>
      match literalName? t.value with
      | some v =>
        if nextIs rest "." || nextIs rest "(" then
          (readChain source t rest).map (Parsed.lift id (by simp))
        else .ok ⟨some (.literal ⟨t.start, t.stop⟩ v), rest, by simp⟩
      | none => (readChain source t rest).map (Parsed.lift id (by simp))
    | _ => .ok ⟨none, t :: rest, Nat.le_refl _⟩
termination_by (ts.length, 1)

/-- The chain that begins with the name `head`, given the tokens behind the name. -/
def readChain (source : Text) (head : Token) (ts : List Token) :
    Except NumeralError (Parsed (Option Node) ts) :=
  (readSegments source head.stop ts).map
    (Parsed.lift (Option.map fun (segments, stop) =>
      .chain ⟨head.start, stop⟩ head.value segments (source.slice head.start stop)) (by simp))
termination_by (ts.length, 4)

/-- The links of a chain, and the offset where it ends; `stop` is where it ends so far. -/
def readSegments (source : Text) (stop : Nat) (ts : List Token) :
    Except NumeralError (Parsed (Option (List Segment × Nat)) ts) :=
  match ts with
  | [] => .ok ⟨some ([], stop), [], Nat.le_refl _⟩
  | t :: rest =>
    if (t.isPunct "." || t.isPunct "?.") && nextKind rest .ident then
      match rest with
      | [] => .ok ⟨some ([], stop), [t], Nat.le_refl _⟩
      | name :: rest =>
        (readSegments source name.stop rest).map
          (Parsed.lift (Option.map fun (segments, stop) => (.access name.value :: segments, stop))
            (by simp only [List.length_cons]; omega))
    else if t.isPunct "<" then
      match h : skipTypeArguments 0 (t :: rest) with
      | some after =>
        have := length_skipTypeArguments h
        (readSegments source stop after).map (Parsed.lift id (by omega))
      | none => .ok ⟨some ([], stop), t :: rest, Nat.le_refl _⟩
    else if t.isPunct "(" then
      match readItems source ")" false rest with
      | .error e => .error e
      | .ok p =>
        have := p.le
        match p.value with
        | none => .ok ⟨none, p.rest, by simp only [List.length_cons]; omega⟩
        | some (arguments, stop) =>
          (readSegments source stop p.rest).map
            (Parsed.lift (Option.map fun (segments, stop) => (.call arguments :: segments, stop))
              (by simp only [List.length_cons]; omega))
    else .ok ⟨some ([], stop), t :: rest, Nat.le_refl _⟩
termination_by (ts.length, 3)

/-- The expressions up to the bracket `close`, divided by commas, and the offset behind the bracket;
`none` if something else follows an expression.  With `holes`, a comma in the place of an expression
is passed over. -/
def readItems (source : Text) (close : Text) (holes : Bool) (ts : List Token) :
    Except NumeralError (Parsed (Option (List Node × Nat)) ts) :=
  match ts with
  | [] => .ok ⟨none, [], Nat.le_refl _⟩
  | t :: rest =>
    if t.isPunct close then .ok ⟨some ([], t.stop), rest, by simp⟩
    else if t.kind = .eof then .ok ⟨none, t :: rest, Nat.le_refl _⟩
    else if holes && t.isPunct "," then
      (readItems source close holes rest).map (Parsed.lift id (by simp))
    else
      match read source (t :: rest) with
      | .error e => .error e
      | .ok p =>
        match h : p.rest with
        | [] => .ok ⟨none, [], by simp⟩
        | u :: after =>
          have : after.length + 1 ≤ rest.length + 1 := by simpa [h] using p.le
          if u.isPunct "," then
            (readItems source close holes after).map
              (Parsed.lift (Option.map fun (ns, stop) => (p.value :: ns, stop))
                (by simp only [List.length_cons]; omega))
          else if u.isPunct close then
            .ok ⟨some ([p.value], u.stop), after, by simp only [List.length_cons]; omega⟩
          else .ok ⟨none, u :: after, by simpa using this⟩
termination_by (ts.length, 3)

/-- The member of an object literal at the beginning of the tokens; `none` for a method, a computed
key or anything else that is passed over. -/
def readMember (source : Text) (ts : List Token) :
    Except NumeralError (Parsed (Option Member) ts) :=
  match ts with
  | [] => .ok ⟨none, [], Nat.le_refl _⟩
  | t :: rest =>
    if t.isPunct "..." then
      (read source rest).map
        (Parsed.lift (fun node => some (.spread (source.slice t.start node.span.stop)))
          (by simp))
    else if t.kind = .ident ∨ t.kind = .string ∨ t.kind = .number then
      match rest with
      | [] => .ok ⟨none, [], by simp⟩
      | u :: after =>
        if u.isPunct ":" then
          (read source after).map
            (Parsed.lift (fun node => some (.property t.value node))
              (by simp only [List.length_cons]; omega))
        else if u.isPunct "," ∨ u.isPunct "\x7d" then
          .ok ⟨some (.property t.value (.verbatim ⟨t.start, t.stop⟩ t.value)), u :: after,
            by simp⟩
        else
          .ok ⟨none, (skipBalanced [] true (u :: after)).2,
            Nat.le_trans (length_skipBalanced_le [] true (u :: after)) (by simp)⟩
    else
      .ok ⟨none, (skipBalanced [] true (t :: rest)).2, length_skipBalanced_le [] true (t :: rest)⟩
termination_by (ts.length, 3)

/-- The members of an object literal up to its closing brace, and the offset behind the brace;
`none` if a member is followed by neither a comma nor the brace. -/
def readMembers (source : Text) (ts : List Token) :
    Except NumeralError (Parsed (Option (List Member × Nat)) ts) :=
  match ts with
  | [] => .ok ⟨none, [], Nat.le_refl _⟩
  | t :: rest =>
    if t.isPunct "\x7d" then .ok ⟨some ([], t.stop), rest, by simp⟩
    else if t.kind = .eof then .ok ⟨none, t :: rest, Nat.le_refl _⟩
    else
      match readMember source (t :: rest) with
      | .error e => .error e
      | .ok p =>
        match h : p.rest with
        | [] => .ok ⟨none, [], by simp⟩
        | u :: after =>
          have : after.length + 1 ≤ rest.length + 1 := by simpa [h] using p.le
          if u.isPunct "," then
            (readMembers source after).map
              (Parsed.lift (Option.map fun (ms, stop) => (p.value.toList ++ ms, stop))
                (by simp only [List.length_cons]; omega))
          else if u.isPunct "\x7d" then
            .ok ⟨some (p.value.toList, u.stop), after, by simp only [List.length_cons]; omega⟩
          else .ok ⟨none, u :: after, by simpa using this⟩
termination_by (ts.length, 4)

end

/-! ### Reading inside a source -/

/-- The arguments of a call whose parenthesis is the first token, and the tokens behind them. -/
def readArguments (source : Text) (ts : List Token) :
    Except NumeralError (Option (List Node) × List Token) :=
  (readItems source ")" false ts.tail).map fun p => (p.value.map (·.1), p.rest)

/-- The chain at the beginning of the tokens, with anything behind it.  A statement without a
semicolon ends at the next keyword, so the chain of a declaration may be followed by one. -/
def readLeadingChain (source : Text) (ts : List Token) :
    Except NumeralError (Option Node × List Token) :=
  match ts with
  | [] => .ok (none, [])
  | t :: rest =>
    if t.kind = .ident ∧ literalName? t.value = none then
      (readChain source t rest).map fun p => (p.value, p.rest)
    else .ok (none, t :: rest)

end Expr

end Scaffold
