import Scaffold.Number.Shortest
import Scaffold.Text.Blank
import Scaffold.Text.Digit
import Scaffold.Text.Quoted

/-!
# Reading numerals

A numeral is an integer or a double (`Number`).  Integers are read in a given radix
(`Numeral.readInteger`), doubles from a decimal with an optional exponent
(`Numeral.readDouble?`); digits of any script count by their value, blanks around the numeral do
not matter.

`Numeral.read` reads the text of a number literal: underscores are left out, one `n` at the end is
dropped, a mark `0x`, `0b` or `0o` selects the radix, a point or an `e` makes it a double.
A text that is no numeral is a `NumeralError`.
-/

namespace Scaffold

/-- A number: an integer of any size, or a double. -/
inductive Number where
  /-- An exact integer. -/
  | integer (value : Int)
  /-- A double. -/
  | double (value : Double)
  deriving DecidableEq, Repr

namespace Number

/-- The number with the other sign. -/
def neg : Number → Number
  | integer i => integer (-i)
  | double d => double d.neg

/-- The number is zero. -/
def isZero : Number → Bool
  | integer i => i == 0
  | double d => d.isZero

end Number

/-- Why a text is no numeral. -/
inductive NumeralError where
  /-- No integer after a radix mark. -/
  | marked (text : Text)
  /-- No decimal integer. -/
  | integer (text : Text)
  /-- A decimal integer of more than 4300 digits. -/
  | tooLong (digits : Nat)
  /-- No decimal with a fraction or an exponent. -/
  | double (text : Text)
  deriving DecidableEq, Repr

namespace Numeral

/-- The most digits that a decimal integer may have. -/
def maxDigits : Nat := 4300

/-- The digits and blanks of all scripts become those of ASCII; other code points outside ASCII
become a mark that no numeral contains. -/
def toAscii (t : Text) : Text := t.map fun c =>
  if c.toNat < 127 then c
  else if c.isBlank then .scalar ' '
  else
    match c.digitValue? with
    | some d => .scalar (Nat.digitChar d)
    | none => .scalar '?'

/-- The ASCII blanks that may stand around a numeral. -/
def isMargin (c : CodePoint) : Bool :=
  c = .scalar ' ' || 0x9 ≤ c.toNat && c.toNat ≤ 0xD

/-- The text in ASCII and without blanks around it. -/
def trim (t : Text) : Text :=
  (((toAscii t).dropWhile isMargin).reverse.dropWhile isMargin).reverse

/-- A sign at the beginning, and what follows it. -/
def readSign : Text → Bool × Text
  | .scalar '-' :: t => (true, t)
  | .scalar '+' :: t => (false, t)
  | t => (false, t)

/-- The value of a digit below `radix`. -/
def digitBelow? (radix : Nat) (c : CodePoint) : Option Nat :=
  c.hexValue?.filter (· < radix)

/-- The value of a run of digits, which single underscores may divide; `acc` is the value of the
digits before it. -/
def readDigits? (radix : Nat) (acc : Nat) : Text → Option Nat
  | [] => none
  | c :: t =>
    match digitBelow? radix c with
    | none => none
    | some d =>
      match t with
      | [] => some (acc * radix + d)
      | .scalar '_' :: t => readDigits? radix (acc * radix + d) t
      | e :: t => readDigits? radix (acc * radix + d) (e :: t)

/-- What follows the radix mark `0m`, with an optional underscore after it; a text without the mark
is returned as it is. -/
def dropMark (mark : Char) : Text → Text
  | .scalar '0' :: c :: t =>
    if c.toAsciiLower = .scalar mark then
      match t with
      | .scalar '_' :: t => t
      | t => t
    else .scalar '0' :: c :: t
  | t => t

/-- The integer that a text denotes in `radix`, whose digits may follow the mark `0m`. -/
def readInteger? (radix : Nat) (mark : Char) (t : Text) : Option Int :=
  let (negative, t) := readSign (trim t)
  (readDigits? radix 0 (dropMark mark t)).map fun n => if negative then -(n : Int) else n

/-- The integer that a text denotes in decimal.  More than `maxDigits` digits are refused before
what follows them is looked at. -/
def readDecimal (t : Text) : Except NumeralError Int :=
  let (negative, digits) := readSign (trim t)
  let count := (digits.takeWhile CodePoint.isAsciiDigit).length
  if maxDigits < count then .error (.tooLong count)
  else
    match readDigits? 10 0 digits with
    | some n => .ok (if negative then -(n : Int) else n)
    | none => .error (.integer t)

/-- The digits at the beginning of a text, and what follows them. -/
def spanDigits (t : Text) : Text × Text := t.spanWhile CodePoint.isAsciiDigit

/-- The value of decimal digits. -/
def valueOf (digits : Text) : Nat :=
  digits.foldl (fun n d => 10 * n + (d.hexValue?).getD 0) 0

/-- The exponent after the digits of a decimal: absent, or an `e`, a sign and digits up to the end
of the text. -/
def readExponent? : Text → Option Int
  | [] => some 0
  | e :: t =>
    if e.toAsciiLower = .scalar 'e' then
      let (negative, t) := readSign t
      let (digits, rest) := spanDigits t
      if digits = [] ∨ rest ≠ [] then none
      else some (if negative then -(valueOf digits : Int) else valueOf digits)
    else none

/-- The double that is nearest to the decimal a text denotes: digits with an optional point before,
between or after them, and an optional exponent. -/
def readDouble? (t : Text) : Option Double :=
  let (negative, t) := readSign (trim t)
  let (whole, t) := spanDigits t
  let (fraction, t) :=
    match t with
    | .scalar '.' :: t => spanDigits t
    | t => ([], t)
  if whole = [] ∧ fraction = [] then none
  else
    (readExponent? t).map fun e =>
      Double.ofDecimal negative (valueOf (whole ++ fraction)) (e - fraction.length)

/-- The radix and the letter of the mark at the beginning of a literal. -/
def radixOf? (t : Text) : Option (Nat × Char) :=
  match t.map CodePoint.toAsciiLower with
  | .scalar '0' :: .scalar 'x' :: _ => some (16, 'x')
  | .scalar '0' :: .scalar 'b' :: _ => some (2, 'b')
  | .scalar '0' :: .scalar 'o' :: _ => some (8, 'o')
  | _ => none

/-- The literal without underscores and without one `n` at its end. -/
def significant (raw : Text) : Text :=
  Text.dropEnd (raw.filter (· ≠ .scalar '_')) "n"

/-- The number that a literal denotes. -/
def read (raw : Text) : Except NumeralError Number :=
  let t := significant raw
  match radixOf? t with
  | some (radix, mark) =>
    match readInteger? radix mark t with
    | some i => .ok (.integer i)
    | none => .error (.marked t)
  | none =>
    if t.any fun c => c.toAsciiLower = .scalar 'e' || c = .scalar '.' then
      match readDouble? t with
      | some d => .ok (.double d)
      | none => .error (.double t)
    else (readDecimal t).map .integer

end Numeral

/-- The wording of a numeral error. -/
def NumeralError.message : NumeralError → Text
  | marked t => "invalid literal for int() with base 0: " ++ t.quoted.take 200
  | integer t => "invalid literal for int() with base 10: " ++ t.quoted.take 200
  | tooLong n =>
    "Exceeds the limit (4300 digits) for integer string conversion: value has " ++ Text.ofNat n
      ++ " digits; use sys.set_int_max_str_digits() to increase the limit"
  | double t => "could not convert string to float: " ++ t.quoted

end Scaffold
