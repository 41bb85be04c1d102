import Scaffold.Value.Display

/-!
# Values as JSON

The machine-readable answers of the command line: JSON with an indentation of two blanks and every
code point outside printable ASCII escaped, those above `U+FFFF` as a pair of surrogates.  An empty
list or object stays on one line.
-/

namespace Scaffold

namespace Text

/-- A code unit as an escape. -/
def jsonEscape (unit : Nat) : Text := "\\u" ++ hex unit 4

/-- One code point inside a JSON string. -/
def jsonPart (c : CodePoint) : Text :=
  if c = .scalar '"' then "\\\""
  else if c = .scalar '\\' then "\\\\"
  else if c = .scalar '\n' then "\\n"
  else if c = .scalar '\r' then "\\r"
  else if c = .scalar '\t' then "\\t"
  else if c.toNat = 0x8 then "\\b"
  else if c.toNat = 0xC then "\\f"
  else if 0x20 ≤ c.toNat ∧ c.toNat ≤ 0x7E then [c]
  else if c.toNat ≤ 0xFFFF then jsonEscape c.toNat
  else
    jsonEscape (0xD800 + (c.toNat - 0x10000) / 0x400)
      ++ jsonEscape (0xDC00 + (c.toNat - 0x10000) % 0x400)

/-- The text as a JSON string. -/
def json (t : Text) : Text := "\"" ++ t.flatMap jsonPart ++ "\""

end Text

namespace Value

/-- A line feed and the indentation of `depth` levels. -/
def jsonBreak (depth : Nat) : Text :=
  "\n" ++ List.replicate (2 * depth) (CodePoint.scalar ' ')

/-- A double in JSON; one that is not finite becomes `null`. -/
def jsonDouble (d : Double) : Text := if d.isFinite then DoubleLayout.json.lay d else "null"

mutual

/-- The value as JSON at an indentation of `depth` levels. -/
def jsonAt (depth : Nat) : Value → Text
  | null => "null"
  | bool b => if b then "true" else "false"
  | number (.integer i) => Text.ofInt i
  | number (.double d) => jsonDouble d
  | text t => t.json
  | list [] => "[]"
  | list (v :: vs) => "[" ++ jsonItems (depth + 1) (v :: vs) ++ jsonBreak depth ++ "]"
  | object [] => "\x7b\x7d"
  | object (e :: m) =>
    "\x7b" ++ jsonMembers (depth + 1) (e :: m) ++ jsonBreak depth ++ "\x7d"

/-- The items of a list, each on its line. -/
def jsonItems (depth : Nat) : List Value → Text
  | [] => []
  | [v] => jsonBreak depth ++ jsonAt depth v
  | v :: w :: vs => jsonBreak depth ++ jsonAt depth v ++ "," ++ jsonItems depth (w :: vs)

/-- The members of an object, each on its line. -/
def jsonMembers (depth : Nat) : List (Text × Value) → Text
  | [] => []
  | [(k, v)] => jsonBreak depth ++ k.json ++ ": " ++ jsonAt depth v
  | (k, v) :: e :: m =>
    jsonBreak depth ++ k.json ++ ": " ++ jsonAt depth v ++ "," ++ jsonMembers depth (e :: m)

end

/-- The value as JSON. -/
def json (v : Value) : Text := jsonAt 0 v

end Value

end Scaffold
