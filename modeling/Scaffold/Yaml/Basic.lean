import Scaffold.Resource.Validation
import Scaffold.Yaml.Moment

/-!
# Configuration data

What a configuration document holds: scalars, lists, and mappings from scalars to data in the order
of the document.

* `Scalar.same` tells which keys of a mapping are the same: numbers and truth values by their value,
  points in time by the instant.  `Yaml.ofEntries` makes a mapping of entries.
* `Scalar.step` is the step that a key means in a complaint about its value.
-/

namespace Scaffold

/-- Why a scalar that is well formed has no value. -/
inductive ScalarError where
  /-- A day or time that there is not. -/
  | moment (e : MomentError)
  /-- An integer of a base without digits. -/
  | noDigits (base : Nat)
  /-- A decimal integer with too many digits. -/
  | tooLong (digits : Nat)
  /-- A floating-point number with a group whose weight no double has. -/
  | tooManyGroups
  /-- A number that no code point has. -/
  | noCodePoint
  /-- A number far beyond those of code points. -/
  | hugeCodePoint
  deriving DecidableEq, Repr

/-- The message for a scalar without a value. -/
def ScalarError.message : ScalarError → Text
  | moment e => e.message
  | noDigits base => "invalid literal for int() with base " ++ Text.ofNat base ++ ": ''"
  | tooLong digits => (NumeralError.tooLong digits).message
  | tooManyGroups => "int too large to convert to float"
  | noCodePoint => "chr() arg not in range(0x110000)"
  | hugeCodePoint => "Python int too large to convert to C int"

/-- Why a document has no data. -/
inductive YamlError where
  /-- The document is not well formed. -/
  | malformed
  /-- A scalar has no value. -/
  | scalar (e : ScalarError)
  deriving DecidableEq, Repr

/-- A scalar. -/
inductive Scalar where
  /-- Nothing. -/
  | null
  /-- A truth value. -/
  | bool (b : Bool)
  /-- An integer. -/
  | integer (i : Int)
  /-- A floating-point number. -/
  | float (d : Double)
  /-- A day. -/
  | day (d : Day)
  /-- A point in time. -/
  | time (m : Moment)
  /-- A text. -/
  | text (t : Text)
  deriving DecidableEq, Repr

/-- The data of a configuration document. -/
inductive Yaml where
  /-- A scalar. -/
  | scalar (s : Scalar)
  /-- A list. -/
  | list (items : List Yaml)
  /-- A mapping, each key once. -/
  | mapping (entries : List (Scalar × Yaml))
  deriving Inhabited

namespace Scalar

/-- The name of the type of a scalar in messages. -/
def typeName : Scalar → Text
  | null => "NoneType"
  | bool _ => "bool"
  | integer _ => "int"
  | float _ => "float"
  | day _ => "date"
  | time _ => "datetime"
  | text _ => "str"

/-- The step to the value of a key.  An integer with too many digits to be written stands without
them. -/
def step : Scalar → Step
  | null => .key "None"
  | bool b => .index (if b then 1 else 0)
  | integer i =>
    if -0x8000000000000000 ≤ i ∧ i < 0x8000000000000000 then .index i
    else if Nat.pow 10 Numeral.maxDigits ≤ i.natAbs then .key "<unprintable int object>"
    else .key (Text.ofInt i)
  | float d => .key (DoubleLayout.plain.lay d)
  | day d => .key d.written
  | time m => .key m.written
  | text t => .key t

/-- The integer that a number or a truth value is, if it is one. -/
def integer? : Scalar → Option Int
  | bool b => some (if b then 1 else 0)
  | integer i => some i
  | float d => d.integer?
  | _ => none

/-- The two are the same key. -/
def same (s t : Scalar) : Bool :=
  match s, t with
  | time m, time n => m.same n
  | s, t =>
    match s.integer?, t.integer? with
    | some i, some j => i == j
    | _, _ => s == t

end Scalar

namespace Yaml

/-- The value of a text key in a mapping. -/
def get? (key : Text) : Yaml → Option Yaml
  | mapping entries => (entries.find? (·.1 = .text key)).map (·.2)
  | _ => none

/-- Gives a key a value; a key that is there keeps its place and its form. -/
def set (key : Scalar) (value : Yaml) : List (Scalar × Yaml) → List (Scalar × Yaml)
  | [] => [(key, value)]
  | (k, v) :: entries =>
    if k.same key then (k, value) :: entries else (k, v) :: set key value entries

/-- The mapping with the given entries, where of equal keys the last one gives the value. -/
def ofEntries (entries : List (Scalar × Yaml)) : Yaml :=
  mapping (entries.foldl (fun done (k, v) => set k v done) [])

/-- The name of the type of data in messages. -/
def typeName : Yaml → Text
  | scalar s => s.typeName
  | list _ => "list"
  | mapping _ => "dict"

end Yaml

end Scaffold
