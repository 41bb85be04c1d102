import Scaffold.Yaml.Basic

/-!
# Plain scalars

A scalar that is written without quotes has a type by its form: `yes` is a truth value, `0x1F` an
integer, `1.5` a floating-point number, `2020-01-01` a day, and so on; what fits no other type is a
text (`Scalar.ofPlain`).  A scalar of the form of a number or a time may still have no value
(`ScalarError`).

Whole numbers and fractions may be written in groups to the base sixty, `1:30` or `1:30.5`, and
digits may be set apart by `_`.
-/

namespace Scaffold

namespace Scalar

/-! ### Words -/

/-- The words for nothing. -/
def nullWords : List Text := ["", "~", "null", "Null", "NULL"]

/-- The words for true. -/
def trueWords : List Text :=
  ["yes", "Yes", "YES", "true", "True", "TRUE", "on", "On", "ON"]

/-- The words for false. -/
def falseWords : List Text :=
  ["no", "No", "NO", "false", "False", "FALSE", "off", "Off", "OFF"]

/-! ### Integers -/

/-- Takes off a sign; true for a minus. -/
def sign : Text → Bool × Text
  | .scalar '-' :: t => (true, t)
  | .scalar '+' :: t => (false, t)
  | t => (false, t)

/-- The text without the marks between digits. -/
def withoutMarks (t : Text) : Text := t.filter (· ≠ .scalar '_')

/-- The number that digits write if they all are digits of the base; `_` is dropped. -/
def digits? (base : Nat) (t : Text) : Option Nat :=
  (withoutMarks t).foldl (fun n c => n.bind fun n =>
    (c.hexValue?.filter (· < base)).map (base * n + ·)) (some 0)

/-- A number of seconds or minutes: one or two digits below sixty. -/
def sixtieth? (t : Text) : Option Nat :=
  if t.length = 0 ∨ 2 < t.length ∨ t.contains (CodePoint.scalar '_') then none
  else (digits? 10 t).filter (· < 60)

/-- The text begins with one of the digits 1 to 9. -/
def startsHigh (t : Text) : Bool :=
  match t with
  | c :: _ => c.isAsciiDigit && c ≠ .scalar '0'
  | [] => false

/-- The number that the digits after the mark of a base write. -/
def based? (base : Nat) (t : Text) : Option (Except ScalarError Nat) :=
  if t = [] then none
  else
    (digits? base t).map fun n => if withoutMarks t = [] then .error (.noDigits base) else .ok n

/-- The decimal number `n` that a text writes, unless it has too many digits. -/
def decimal (t : Text) (n : Nat) : Except ScalarError Nat :=
  let count := (withoutMarks t).length
  if Numeral.maxDigits < count then .error (.tooLong count) else .ok n

/-- The size of an integer without its sign. -/
def size? (t : Text) : Option (Except ScalarError Nat) :=
  match t with
  | .scalar '0' :: .scalar 'b' :: r => based? 2 r
  | .scalar '0' :: .scalar 'x' :: r => based? 16 r
  | .scalar '0' :: r => (digits? 8 r).map .ok
  | t =>
    if !startsHigh t then none
    else
      match Text.splitOn ':' t with
      | [whole] => (digits? 10 whole).map (decimal whole)
      | whole :: parts => do
        let n ← digits? 10 whole
        let ps ← parts.mapM sixtieth?
        return (decimal whole n).map fun n => ps.foldl (60 * · + ·) n
      | [] => none

/-- The integer that a plain scalar writes. -/
def writtenInteger? (t : Text) : Option (Except ScalarError Int) :=
  let (negative, r) := sign t
  (size? r).map fun x => x.map fun n => if negative then -(n : Int) else n

/-! ### Floating-point numbers -/

/-- Digits and `_` only. -/
def isDigits (t : Text) : Bool := t.all fun c => c.isAsciiDigit || c = .scalar '_'

/-- Nothing, or the exponent of a floating-point number, whose sign has to be written. -/
def isExponent : Text → Bool
  | [] => true
  | .scalar e :: .scalar s :: t =>
    (e = 'e' || e = 'E') && (s = '+' || s = '-') && t ≠ [] && t.all CodePoint.isAsciiDigit
  | _ => false

/-- Splits digits and `_` off the beginning. -/
def spanDigits (t : Text) : Text × Text :=
  t.spanWhile fun c => c.isAsciiDigit || c = .scalar '_'

/-- The text begins with a decimal digit. -/
def startsDigit (t : Text) : Bool :=
  match t with
  | c :: _ => c.isAsciiDigit
  | [] => false

/-- A decimal with a point, and an exponent perhaps.  Only without a sign before it the point may
come first. -/
def isDecimal (t : Text) : Bool :=
  let (whole, fraction) := spanDigits (sign t).2
  let long := startsDigit whole &&
    match fraction with
    | .scalar '.' :: f => isExponent (spanDigits f).2
    | _ => false
  let short :=
    match t with
    | .scalar '.' :: f => startsDigit f && isExponent (spanDigits f).2
    | _ => false
  long || short

/-- The double that a decimal writes. -/
def doubleOf (t : Text) : Double := (Numeral.readDouble? (withoutMarks t)).getD .nan

/-- The groups to the base sixty of a number with a point in the last one. -/
def groups? (t : Text) : Option (List Text) :=
  match Text.splitOn '.' t with
  | [whole, f] =>
    match Text.splitOn ':' whole with
    | n :: p :: ps =>
      if startsDigit n && isDigits n && (p :: ps).all (fun s => (sixtieth? s).isSome) && isDigits f
      then some (Text.splitOn ':' t) else none
    | _ => none
  | _ => none

/-- The sum of groups from the last one on, each weighed with the next power of sixty and rounded,
as is every sum. -/
def sumGroups (groups : List Double) : Except ScalarError Double :=
  groups.reverse.zipIdx.foldlM (fun sum (d, n) =>
    match Double.ofRatio false (Nat.pow 60 n) 1 with
    | .infinite _ => .error .tooManyGroups
    | weight => .ok (sum.plus (d.times weight))) .zero

/-- The floating-point number that a plain scalar writes. -/
def writtenDouble? (t : Text) : Option (Except ScalarError Double) :=
  let (negative, r) := sign t
  if isDecimal t then some (.ok (doubleOf t))
  else if ([".inf", ".Inf", ".INF"] : List Text).contains r then some (.ok (.infinite negative))
  else if ([".nan", ".NaN", ".NAN"] : List Text).contains t then some (.ok .nan)
  else
    (groups? r).map fun groups =>
      (sumGroups (groups.map doubleOf)).map fun d => if negative then d.neg else d

/-! ### Days and times -/

/-- The number that decimal digits write, if there are between `least` and `most` of them. -/
def count? (least most : Nat) (t : Text) : Option Nat :=
  if least ≤ t.length ∧ t.length ≤ most ∧ t.all CodePoint.isAsciiDigit then digits? 10 t else none

/-- The day that a text writes, with at least `least` digits for the month and the day. -/
def day? (least : Nat) (t : Text) : Option Day :=
  match Text.splitOn '-' t with
  | [y, m, d] => do return ⟨← count? 4 4 y, ← count? least 2 m, ← count? least 2 d⟩
  | _ => none

/-- A blank or a tab. -/
def isBlank (c : CodePoint) : Bool := c = .scalar ' ' || c = .scalar '\t'

/-- The distance from universal time in minutes that a text writes: nothing, `Z`, or signed hours
with or without minutes. -/
def offset? (t : Text) : Option (Option Int) :=
  match t.dropWhile isBlank with
  | [] => if t.isEmpty then some none else none
  | [.scalar 'Z'] => some (some 0)
  | c :: r => do
    let negative ←
      if c = .scalar '-' then some true else if c = .scalar '+' then some false else none
    let minutes ← match Text.splitOn ':' r with
      | [h] => (count? 1 2 h).map (60 * ·)
      | [h, m] => do pure (60 * (← count? 1 2 h) + (← count? 2 2 m))
      | _ => none
    return some (if negative then -(minutes : Int) else minutes)

/-- The microseconds that the digits of a fraction write. -/
def microseconds (fraction : Text) : Nat :=
  let digits := fraction.take 6
  ((digits? 10 digits).getD 0) * Nat.pow 10 (6 - digits.length)

/-- The point in time that a plain scalar writes. -/
def moment? (t : Text) : Option Moment := do
  let (date, rest) := t.spanWhile fun c => c.isAsciiDigit || c = .scalar '-'
  let date ← day? 1 date
  let clock ← match rest with
    | .scalar 'T' :: r | .scalar 't' :: r => some r
    | c :: r => if isBlank c then some (r.dropWhile isBlank) else none
    | [] => none
  let (hms, rest) := Text.spanWhile (fun c => c.isAsciiDigit || c = .scalar ':') clock
  let (hour, minute, second) ← match Text.splitOn ':' hms with
    | [h, m, s] => do pure (← count? 1 2 h, ← count? 2 2 m, ← count? 2 2 s)
    | _ => none
  let (fraction, rest) := match rest with
    | .scalar '.' :: f => Text.spanWhile CodePoint.isAsciiDigit f
    | r => ([], r)
  return ⟨date, hour, minute, second, microseconds fraction, ← offset? rest⟩

/-! ### Any plain scalar -/

/-- The scalar that is written without quotes.  The mark of a default value and the mark of merged
mappings are no data. -/
def ofPlain (t : Text) : Except YamlError Scalar :=
  if nullWords.contains t then .ok null
  else if trueWords.contains t then .ok (bool true)
  else if falseWords.contains t then .ok (bool false)
  else if ([("=" : Text), "<<"] : List Text).contains t then .error .malformed
  else
    match writtenDouble? t, writtenInteger? t, day? 2 t, moment? t with
    | some x, _, _, _ => (x.mapError .scalar).map float
    | none, some x, _, _ => (x.mapError .scalar).map integer
    | none, none, some d, _ => (d.check.mapError (.scalar ∘ .moment)).map fun _ => day d
    | none, none, none, some m => (m.check.mapError (.scalar ∘ .moment)).map fun _ => time m
    | none, none, none, none => .ok (text t)

example : (ofPlain "0x1F" matches .ok (integer 31)) = true := by decide +kernel

example : (ofPlain "2020-01-01" matches .ok (day ⟨2020, 1, 1⟩)) = true := by decide +kernel

example : (ofPlain "1:30.5" matches .ok (float _)) = true := by decide +kernel

end Scalar

end Scaffold
