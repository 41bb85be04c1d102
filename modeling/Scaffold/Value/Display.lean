import Scaffold.Value.Basic

/-!
# Values in displayed text

Titles and analytics settings may be any plain data; `Value.display` is the text shown for them.  A
text is shown as it is, and in quotes inside a list or an object.

An integer of more than 4300 digits has no decimal text: `Value.oversized` finds one in a value, and
`oversizedMessage` is the error for it.
-/

namespace Scaffold

/-- The text of a truth value. -/
def displayBool (b : Bool) : Text := if b then "True" else "False"

/-- The text of a number. -/
def Number.display : Number → Text
  | integer i => Text.ofInt i
  | double d => DoubleLayout.plain.lay d

namespace Value

mutual

/-- The text of a value inside a list or an object. -/
def displayPart : Value → Text
  | null => "None"
  | bool b => displayBool b
  | number n => n.display
  | text t => t.quoted
  | list vs => "[" ++ displayItems vs ++ "]"
  | object m => "\x7b" ++ displayMembers m ++ "\x7d"

/-- The items of a list, divided by commas. -/
def displayItems : List Value → Text
  | [] => []
  | [v] => displayPart v
  | v :: w :: vs => displayPart v ++ ", " ++ displayItems (w :: vs)

/-- The members of an object, divided by commas. -/
def displayMembers : List (Text × Value) → Text
  | [] => []
  | [(k, v)] => k.quoted ++ ": " ++ displayPart v
  | (k, v) :: e :: m => k.quoted ++ ": " ++ displayPart v ++ ", " ++ displayMembers (e :: m)

end

/-- The text shown for a value. -/
def display : Value → Text
  | text t => t
  | v => displayPart v

mutual

/-- Some integer in the value has more digits than can be written. -/
def oversized : Value → Bool
  | number (.integer i) => Nat.pow 10 Numeral.maxDigits ≤ i.natAbs
  | list vs => oversizedItems vs
  | object m => oversizedMembers m
  | _ => false

/-- Some item holds such an integer. -/
def oversizedItems : List Value → Bool
  | [] => false
  | v :: vs => oversized v || oversizedItems vs

/-- Some member holds such an integer. -/
def oversizedMembers : List (Text × Value) → Bool
  | [] => false
  | (_, v) :: m => oversized v || oversizedMembers m

end

end Value

/-- The error for an integer of too many digits. -/
def oversizedMessage : Text :=
  "Exceeds the limit (4300 digits) for integer string conversion; "
    ++ "use sys.set_int_max_str_digits() to increase the limit"

end Scaffold
