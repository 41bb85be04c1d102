import Scaffold.Value.Display

/-!
# Values as TypeScript literals

`Text.literal` writes a text as a string literal in single quotes and `Value.source` writes plain
data as a literal expression.  `Text.markup` protects a text that stands between the tags of a
component.
-/

namespace Scaffold

namespace Text

/-- One code point inside single quotes: backslash, quote, line feed and carriage return are
escaped. -/
def literalPart (c : CodePoint) : Text :=
  if c = .scalar '\\' then "\\\\"
  else if c = .scalar '\'' then "\\'"
  else if c = .scalar '\n' then "\\n"
  else if c = .scalar '\r' then "\\r"
  else [c]

/-- The text as a string literal. -/
def literal (t : Text) : Text := "'" ++ t.flatMap literalPart ++ "'"

/-- One code point between tags: braces and angle brackets become character references. -/
def markupPart (c : CodePoint) : Text :=
  if c = .scalar '\x7b' then "&#123;"
  else if c = .scalar '\x7d' then "&#125;"
  else if c = .scalar '<' then "&lt;"
  else if c = .scalar '>' then "&gt;"
  else [c]

/-- The text as it stands between tags. -/
def markup (t : Text) : Text := t.flatMap markupPart

end Text

/-- A number as a literal. -/
def Number.source : Number → Text
  | integer i => Text.ofInt i
  | double d => DoubleLayout.json.lay d

namespace Value

mutual

/-- The value as a literal expression; nothing is written `undefined`. -/
def source : Value → Text
  | null => "undefined"
  | bool b => if b then "true" else "false"
  | number n => n.source
  | text t => t.literal
  | list vs => "[" ++ sourceItems vs ++ "]"
  | object [] => "\x7b\x7d"
  | object (e :: m) => "\x7b " ++ sourceMembers (e :: m) ++ " \x7d"

/-- The items of a list literal. -/
def sourceItems : List Value → Text
  | [] => []
  | [v] => source v
  | v :: w :: vs => source v ++ ", " ++ sourceItems (w :: vs)

/-- The members of an object literal. -/
def sourceMembers : List (Text × Value) → Text
  | [] => []
  | [(k, v)] => k ++ ": " ++ source v
  | (k, v) :: e :: m => k ++ ": " ++ source v ++ ", " ++ sourceMembers (e :: m)

end

end Value

end Scaffold
