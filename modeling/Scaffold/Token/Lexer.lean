import Scaffold.Text.Blank
import Scaffold.Text.Digit
import Scaffold.Token.Literal

/-!
# The token sequence of a source

`tokenize` splits a source into tokens.  Blanks and comments are dropped; strings, templates and
regular expressions are single tokens, so that nothing inside them is taken for code.  A slash
begins a regular expression unless the token before it ends an operand.

The reading of names, numbers and marks needs no look at what stands before, and is given by
functions that split a text in two: `scanIdent`, `scanNumber`, `scanPunct`.
-/

namespace Scaffold

/-! ### Names, numbers and marks -/

/-- A code point that can begin a name. -/
def isIdentStart (c : CodePoint) : Bool :=
  c.isAsciiLetter || c = .scalar '_' || c = .scalar '$'

/-- A code point that can stand in a name. -/
def isIdentPart (c : CodePoint) : Bool := isIdentStart c || c.isAsciiDigit

/-- The text is a name: a letter, underscore or dollar sign, then these and ASCII digits. -/
def Text.isIdent : Text → Bool
  | [] => false
  | c :: t => isIdentStart c && t.all isIdentPart

/-- The rest of a name, and the text behind it. -/
def scanIdent (t : Text) : Text × Text := Text.spanWhile isIdentPart t

/-- A decimal digit of any script or an underscore. -/
def isNumberPart (c : CodePoint) : Bool := c.isDigit || c = .scalar '_'

/-- A digit that may follow the radix mark `0m`, or an underscore. -/
def isMarkedPart (mark : Char) (c : CodePoint) : Bool :=
  c = .scalar '_' ||
    (match mark with
    | 'x' => c.hexValue?.isSome
    | 'b' => (Numeral.digitBelow? 2 c).isSome
    | _ => (Numeral.digitBelow? 8 c).isSome)

/-- The exponent at the beginning of a text, and the text behind it: an `e`, an optional sign and at
least one digit, or nothing. -/
def scanExponent : Text → Text × Text
  | [] => ([], [])
  | e :: t =>
    if e.toAsciiLower = .scalar 'e' then
      let (sign, t') :=
        match t with
        | .scalar '+' :: t => ([CodePoint.scalar '+'], t)
        | .scalar '-' :: t => ([CodePoint.scalar '-'], t)
        | t => ([], t)
      let (digits, rest) := Text.spanWhile CodePoint.isDigit t'
      if digits = [] then ([], e :: t) else (e :: sign ++ digits, rest)
    else ([], e :: t)

/-- The fraction at the beginning of a text, and the text behind it: a point and digits, or
nothing. -/
def scanFraction : Text → Text × Text
  | .scalar '.' :: t =>
    let (digits, rest) := Text.spanWhile isNumberPart t
    (.scalar '.' :: digits, rest)
  | t => ([], t)

/-- The `n` that marks a large integer, and the text behind it. -/
def scanLargeMark : Text → Text × Text
  | .scalar 'n' :: t => ([.scalar 'n'], t)
  | t => ([], t)

/-- The decimal that begins with the digit or point `c`, without `c`, and the text behind it. -/
def scanDecimal (c : CodePoint) (t : Text) : Text × Text :=
  let (whole, t) := Text.spanWhile isNumberPart t
  let (fraction, t) := if c = .scalar '.' then ([], t) else scanFraction t
  let (exponent, t) := scanExponent t
  let (large, t) := scanLargeMark t
  (whole ++ fraction ++ exponent ++ large, t)

/-- The digits after a radix mark, and the text behind them; nothing if there are none. -/
def scanMarked? (mark : Char) (t : Text) : Option (Text × Text) :=
  match t with
  | m :: t =>
    if m.toAsciiLower = .scalar mark then
      let (digits, t) := Text.spanWhile (isMarkedPart mark) t
      if digits = [] then none
      else
        let (large, t) := scanLargeMark t
        some (m :: digits ++ large, t)
    else none
  | [] => none

/-- The number that begins with the digit or point `c`, without `c`, and the text behind it. -/
def scanNumber (c : CodePoint) (t : Text) : Text × Text :=
  let marked :=
    if c = .scalar '0' then
      scanMarked? 'x' t <|> scanMarked? 'b' t <|> scanMarked? 'o' t
    else none
  marked.getD (scanDecimal c t)

/-- The marks of several code points, longer ones first. -/
def longPuncts : List Text :=
  ["...", "===", "!==", "**=", "??=", "=>", "?.", "??", "==", "!=",
    "<=", ">=", "&&", "||", "++", "--", "+=", "-=", "*=", "/=", "**"]

/-- The mark at the beginning of `c :: t`: a long one if there is one, and `c` alone otherwise. -/
def scanPunct (c : CodePoint) (t : Text) : Text :=
  (longPuncts.find? (Text.startsWith (c :: t))).getD [c]

/-! ### One token -/

/-- What a token is and stands for. -/
abbrev Lexeme := TokenKind × Text

/-- What stands before the rest of a longer text. -/
def consumed (t rest : Text) : Text := t.take (t.length - rest.length)

theorem length_scanExponent_le (t : Text) : (scanExponent t).2.length ≤ t.length := by
  unfold scanExponent
  split
  · simp
  · rename_i e t
    split
    · split
      rename_i sign t' hs
      have ht : t'.length ≤ t.length := by
        split at hs <;> simp only [Prod.mk.injEq] at hs <;> obtain ⟨rfl, rfl⟩ := hs <;> simp
      have := Text.length_spanWhile_le CodePoint.isDigit t'
      simp only
      split
      · simp
      · simp only [List.length_cons]; omega
    · simp

theorem length_scanFraction_le (t : Text) : (scanFraction t).2.length ≤ t.length := by
  unfold scanFraction
  split
  · have := Text.length_spanWhile_le isNumberPart ‹Text›
    simp only [List.length_cons]; omega
  · simp

theorem length_scanLargeMark_le (t : Text) : (scanLargeMark t).2.length ≤ t.length := by
  unfold scanLargeMark
  split <;> simp

theorem length_scanDecimal_le (c : CodePoint) (t : Text) :
    (scanDecimal c t).2.length ≤ t.length := by
  unfold scanDecimal
  have h1 := Text.length_spanWhile_le isNumberPart t
  by_cases hc : c = .scalar '.'
  · simp only [hc, if_true]
    have h2 := length_scanExponent_le (Text.spanWhile isNumberPart t).2
    have h3 := length_scanLargeMark_le (scanExponent (Text.spanWhile isNumberPart t).2).2
    omega
  · simp only [hc, if_false]
    have h2 := length_scanFraction_le (Text.spanWhile isNumberPart t).2
    have h3 := length_scanExponent_le (scanFraction (Text.spanWhile isNumberPart t).2).2
    have h4 := length_scanLargeMark_le
      (scanExponent (scanFraction (Text.spanWhile isNumberPart t).2).2).2
    omega

theorem length_scanMarked?_le {mark : Char} {t m rest : Text}
    (h : scanMarked? mark t = some (m, rest)) : rest.length ≤ t.length := by
  unfold scanMarked? at h
  split at h
  · rename_i m t
    split at h
    · simp only at h
      split at h
      · simp at h
      · simp only [Option.some.injEq, Prod.mk.injEq] at h
        have h1 := Text.length_spanWhile_le (isMarkedPart mark) t
        have h2 := length_scanLargeMark_le (Text.spanWhile (isMarkedPart mark) t).2
        rw [← h.2]
        simp only [List.length_cons]
        omega
    · simp at h
  · simp at h

/-- The text behind a number is not longer than the one behind its first code point. -/
theorem length_scanNumber_le (c : CodePoint) (t : Text) :
    (scanNumber c t).2.length ≤ t.length := by
  unfold scanNumber
  simp only
  split
  · cases hx : scanMarked? 'x' t with
    | some p => exact length_scanMarked?_le hx
    | none =>
      cases hb : scanMarked? 'b' t with
      | some p => exact length_scanMarked?_le hb
      | none =>
        cases ho : scanMarked? 'o' t with
        | some p => exact length_scanMarked?_le ho
        | none => exact length_scanDecimal_le c t
  · exact length_scanDecimal_le c t

/-- A number begins here: a digit, or a point before a digit. -/
def beginsNumber (c : CodePoint) (t : Text) : Bool :=
  c.isAsciiDigit || c = .scalar '.' && t.head?.any CodePoint.isAsciiDigit

/-- The token at the beginning of `c :: t`, which is neither blank nor a comment, and the text
behind it.  A slash begins a regular expression when `operand` is false. -/
def scanToken (operand : Bool) (c : CodePoint) (t : Text) :
    Except LexFault (Scanned Lexeme (c :: t)) :=
  if c = .scalar '\'' ∨ c = .scalar '"' then
    (scanString c (t.length + 1) t).map (Scanned.lift (fun v => (.string, v)) (Nat.le_succ _))
  else if c = .scalar '\x60' then
    (scanTemplate (t.length + 1) t).map
      (Scanned.lift (fun (v, i) => (.template i, v)) (Nat.le_succ _))
  else if c = .scalar '/' ∧ operand = false then
    match h : skipRegex (t.length + 1) false t with
    | .error e => .error e
    | .ok r => .ok ⟨(.regex, consumed (c :: t) r), r, Nat.lt_succ_of_lt (length_skipRegex h)⟩
  else if beginsNumber c t then
    .ok ⟨(.number, c :: (scanNumber c t).1), (scanNumber c t).2,
      Nat.lt_succ_of_le (length_scanNumber_le c t)⟩
  else if isIdentStart c then
    .ok ⟨(.ident, c :: (scanIdent t).1), (scanIdent t).2,
      Nat.lt_succ_of_le (Text.length_spanWhile_le isIdentPart t)⟩
  else
    .ok ⟨(.punct, scanPunct c t), t.drop ((scanPunct c t).length - 1),
      Nat.lt_succ_of_le (List.drop_sublist _ t).length_le⟩

/-! ### The whole source -/

/-- The text behind the line that it begins in. -/
def skipLine (t : Text) : Text := (t.dropWhile (· ≠ .scalar '\n')).drop 1

/-- The tokens of the last part `t` of a source of `n` code points; `operand` tells whether the
token before it ends an operand. -/
def tokensFrom (n : Nat) (operand : Bool) (t : Text) : Except LexError (List Token) :=
  match t with
  | [] => .ok [Token.endOf n]
  | c :: r =>
    if c.isBlank then tokensFrom n operand r
    else if Text.startsWith (c :: r) "//" then tokensFrom n operand (skipLine r)
    else if Text.startsWith (c :: r) "/*" then
      match h : Text.cut? "*/" (r.drop 1) with
      | none => .error ⟨.unclosedComment, n - (r.length + 1)⟩
      | some (_, rest) => tokensFrom n operand rest
    else
      match scanToken operand c r with
      | .error e => .error (e.located n)
      | .ok s =>
        have := s.shorter
        let (kind, value) := s.value
        (tokensFrom n (kind.endsOperand value) s.rest).map
          (⟨kind, value, n - (r.length + 1), n - s.rest.length⟩ :: ·)
termination_by t.length
decreasing_by
  · simp
  · have := Text.length_dropWhile_le (fun c => decide (c ≠ CodePoint.scalar '\n')) r
    simp only [skipLine, List.length_drop, List.length_cons]
    omega
  · have := congrArg List.length (Text.eq_of_cut? h)
    simp only [List.length_append, List.length_drop, List.length_cons] at this ⊢
    omega
  · exact s.shorter

/-- The tokens of a source, the last of them `eof`. -/
def tokenize (source : Text) : Except LexError (List Token) :=
  tokensFrom source.length false source

end Scaffold
