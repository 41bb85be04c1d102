/-!
# Double-precision numbers

A number with a fraction or an exponent is rounded to 53 binary digits.  `Double` is that format
(binary64 of IEEE 754) as plain data: a sign, a mantissa and an exponent of two, or an infinity,
or no number at all.

* `Double.ofRatio` rounds a quotient to the nearest double, ties to the even mantissa.
* `Double.ofDecimal` does so for a decimal with an exponent of ten.
* `Double.plus` and `Double.times` round a sum and a product.
-/

namespace Scaffold

/-- A binary64 number.  `finite s m e` is `m · 2^e`, negated when `s`; the mantissa of a rounded
number is below `2^53`, and at least `2^52` unless the exponent is the smallest, `-1074`. -/
inductive Double where
  /-- `mantissa · 2^exponent`, with its sign; zero has a sign too. -/
  | finite (negative : Bool) (mantissa : Nat) (exponent : Int)
  /-- An infinity. -/
  | infinite (negative : Bool)
  /-- Not a number. -/
  | nan
  deriving DecidableEq, Repr

namespace Double

/-- The number with the other sign. -/
def neg : Double → Double
  | finite s m e => finite (!s) m e
  | infinite s => infinite (!s)
  | nan => nan

/-- The number is zero, of either sign. -/
def isZero : Double → Bool
  | finite _ m _ => m == 0
  | _ => false

/-- The number is neither infinite nor undefined. -/
def isFinite : Double → Bool
  | finite .. => true
  | _ => false

/-- The integer that the number is, if it is finite and has no fraction. -/
def integer? : Double → Option Int
  | finite s m e =>
    let unit := Nat.pow 2 (-e).toNat
    let n : Int := if 0 ≤ e then m * Nat.pow 2 e.toNat else (m / unit : Nat)
    if 0 ≤ e || m % unit == 0 then some (if s then -n else n) else none
  | _ => none

/-- The smallest mantissa of 53 binary digits. -/
def leastMantissa : Nat := 0x10000000000000

/-- The exponent of the smallest doubles. -/
def leastExponent : Int := -1074

/-- The exponent of the largest doubles. -/
def greatestExponent : Int := 971

/-- The integer nearest to `num / den`; halfway between two, the even one. -/
def roundHalfEven (num den : Nat) : Nat :=
  let q := num / den
  let r := num % den
  if 2 * r < den then q
  else if den < 2 * r then q + 1
  else if q % 2 = 0 then q else q + 1

/-- `num / den · base^e` as a quotient of natural numbers. -/
def scale (num den base : Nat) (e : Int) : Nat × Nat :=
  if 0 ≤ e then (num * base.pow e.toNat, den) else (num, den * base.pow (-e).toNat)

/-- The exponent at which a positive quotient has a mantissa of 53 binary digits, or the smallest
exponent for quotients too small for that. -/
def exponentOf (num den : Nat) : Int :=
  let guess : Int := (Nat.log2 num : Int) - Nat.log2 den - 52
  let (n, d) := scale num den 2 (-guess)
  max (if n < leastMantissa * d then guess - 1 else guess) leastExponent

/-- The double nearest to `num / den`, negated when `negative`; `den` is positive. -/
def ofRatio (negative : Bool) (num den : Nat) : Double :=
  if num = 0 then finite negative 0 leastExponent
  else
    let e := exponentOf num den
    let (n, d) := scale num den 2 (-e)
    let m := roundHalfEven n d
    let (m, e) := if m = 2 * leastMantissa then (leastMantissa, e + 1) else (m, e)
    if greatestExponent < e then infinite negative else finite negative m e

/-- The double nearest to `digits · 10^exponent`, negated when `negative`.  Exponents far outside
the range of doubles are decided without computing the power. -/
def ofDecimal (negative : Bool) (digits : Nat) (exponent : Int) : Double :=
  let magnitude : Int := (Nat.toDigits 10 digits).length + exponent
  if digits = 0 ∨ magnitude < -330 then finite negative 0 leastExponent
  else if 330 < magnitude then infinite negative
  else
    let (n, d) := scale digits 1 10 exponent
    ofRatio negative n d

/-! ### Sums and products -/

/-- Zero. -/
def zero : Double := finite false 0 leastExponent

/-- The double nearest to `n · 2^e`, negated when `negative`. -/
def ofScaled (negative : Bool) (n : Nat) (e : Int) : Double :=
  let (num, den) := scale n 1 2 e
  ofRatio negative num den

/-- The mantissa with its sign. -/
def signed (negative : Bool) (mantissa : Nat) : Int := if negative then -mantissa else mantissa

/-- The sum of two numbers, rounded. -/
def plus : Double → Double → Double
  | finite s m e, finite t n f =>
    let least := min e f
    let sum := signed s m * Nat.pow 2 (e - least).toNat + signed t n * Nat.pow 2 (f - least).toNat
    ofScaled (decide (sum < 0)) sum.natAbs least
  | infinite s, infinite t => if s = t then infinite s else nan
  | infinite s, finite .. => infinite s
  | finite .., infinite t => infinite t
  | nan, _ | _, nan => nan

/-- The product of two numbers, rounded. -/
def times : Double → Double → Double
  | finite s m e, finite t n f => ofScaled (s != t) (m * n) (e + f)
  | infinite s, infinite t => infinite (s != t)
  | infinite s, finite t m _ | finite t m _, infinite s => if m = 0 then nan else infinite (s != t)
  | nan, _ | _, nan => nan

example : ofDecimal false 1 (-1) = finite false 0x1999999999999A (-56) := by decide +kernel

example : ofDecimal false 15 (-1) = finite false 0x18000000000000 (-52) := by decide +kernel

end Double

end Scaffold
