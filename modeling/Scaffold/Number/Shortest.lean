import Scaffold.Number.Double
import Scaffold.Text.Basic

/-!
# The shortest decimal of a double

A double is written with the fewest digits that read back to it; of several such decimals the one
nearest to the number is taken.  `Double.shortest?` looks for it on decimal grids of one, two, …
seventeen digits, in exact arithmetic: the first grid with a neighbour of the number inside the
interval that rounds to it has the answer.  Halfway between two neighbours, the even one is taken.

How the digits are laid out is a `DoubleLayout`: `DoubleLayout.plain` is the layout of displayed
values, `DoubleLayout.json` the one of JSON.
-/

namespace Scaffold

namespace Double

/-- The largest `p` with `10^p ≤ num / den`, for a positive quotient. -/
def decimalExponent (num den : Nat) : Int :=
  if den ≤ num then (Nat.toDigits 10 (num / den)).length - 1
  else -((Nat.toDigits 10 ((den - 1) / num)).length : Int)

/-- A decimal of `count` digits that rounds to the positive double `m · 2^e`: the nearer one of the
number's two neighbours on the grid, as `(digits, exponent of ten)`. -/
def candidate? (m : Nat) (e : Int) (count : Nat) : Option (Nat × Int) :=
  -- A quarter of a unit in the last place; all comparisons are made over a common denominator.
  let (num, den) := scale 1 1 2 (e - 2)
  let exponent := decimalExponent (4 * m * num) den - (count - 1 : Nat)
  let (stepNum, stepDen) := scale 1 1 10 exponent
  let value := 4 * m * num * stepDen
  let gap := if m = leastMantissa ∧ leastExponent < e then 1 else 2
  let lower := (4 * m - gap) * num * stepDen
  let upper := (4 * m + 2) * num * stepDen
  let step := stepNum * den
  let inside (x : Nat) : Bool :=
    if m % 2 = 0 then lower ≤ x && x ≤ upper else lower < x && x < upper
  let d := value / step
  let low := d * step
  let high := (d + 1) * step
  let lowIsNearer : Bool :=
    value - low < high - value || (value - low == high - value && d % 2 == 0)
  if inside low && (!inside high || lowIsNearer) then some (d, exponent)
  else if inside high then
    -- Rounding up may reach the next power of ten.
    some (if d + 1 = Nat.pow 10 count then (Nat.pow 10 (count - 1), exponent + 1)
      else (d + 1, exponent))
  else none

/-- The digits and the exponent of ten of the shortest decimal that reads back to the positive
double `m · 2^e`. -/
def shortest? (m : Nat) (e : Int) : Option (Nat × Int) :=
  (List.range 17).findSome? fun n => candidate? m e (n + 1)

example : shortest? 0x1999999999999A (-56) = some (1, -1) := by decide +kernel

example : shortest? 1 (-1074) = some (5, -324) := by decide +kernel

end Double

/-- How the digits of a double are laid out. -/
structure DoubleLayout where
  /-- The text of positive infinity; a minus sign is put before it for the other one. -/
  infinity : Text
  /-- The text of the undefined number. -/
  undefined : Text

namespace DoubleLayout

/-- The layout of displayed values. -/
def plain : DoubleLayout := ⟨"inf", "nan"⟩

/-- The layout of JSON and of TypeScript sources. -/
def json : DoubleLayout := ⟨"Infinity", "NaN"⟩

/-- The exponent part: the letter, a sign, and at least two digits. -/
def exponentPart (p : Int) : Text :=
  let mark : Text := if p < 0 then "e-" else "e+"
  mark ++ Text.padLeft (Text.ofNat p.natAbs) 2 '0'

/-- Digits and an exponent of ten, positionally while the number lies from `10^-4` up to `10^16`
and with an exponent otherwise; a positional number has at least one digit after the point. -/
def layDigits (digits : Nat) (exponent : Int) : Text :=
  let text := Text.ofNat digits
  let p : Int := exponent + text.length - 1
  if p < -4 ∨ 16 ≤ p then
    match text with
    | [] => []
    | [d] => [d] ++ exponentPart p
    | d :: rest => [d] ++ "." ++ rest ++ exponentPart p
  else if p < 0 then "0." ++ List.replicate (-p - 1).toNat (CodePoint.scalar '0') ++ text
  else if 0 ≤ exponent then text ++ List.replicate exponent.toNat (CodePoint.scalar '0') ++ ".0"
  else text.take (p + 1).toNat ++ "." ++ text.drop (p + 1).toNat

/-- The sign before a number. -/
def sign (negative : Bool) : Text := if negative then "-" else ""

/-- The text of `m · 2^e`. -/
def magnitude (m : Nat) (e : Int) : Text :=
  if m = 0 then "0.0"
  else
    match Double.shortest? m e with
    | some (digits, exponent) => layDigits digits exponent
    | none => layDigits m e

/-- The text of a double. -/
def lay (layout : DoubleLayout) : Double → Text
  | .nan => layout.undefined
  | .infinite s => sign s ++ layout.infinity
  | .finite s m e => sign s ++ magnitude m e

end DoubleLayout

end Scaffold
