import Scaffold.Text.Printable

/-!
# Quoted texts

The one-line form of a text in messages: between single quotes, or between double quotes when it
has a single quote and no double one.  The quote and the backslash are escaped by a backslash; a
tab, line feed and carriage return are written as letters; every other code point that is not
printable is written as its number in two, four or eight hexadecimal digits.
-/

namespace Scaffold

namespace Text

/-- The hexadecimal digits of `n`, with zeros on the left up to `width` digits. -/
def hex (n width : Nat) : Text := padLeft ((Nat.toDigits 16 n).map CodePoint.scalar) width '0'

/-- The mark that stands around the quoted form. -/
def quoteMark (t : Text) : Char :=
  if t.contains (CodePoint.scalar '\'') && !t.contains (CodePoint.scalar '"') then '"' else '\''

/-- The escape that gives a code point by its number. -/
def numbered (c : CodePoint) : Text :=
  if c.toNat ≤ 0xFF then "\\x" ++ hex c.toNat 2
  else if c.toNat ≤ 0xFFFF then "\\u" ++ hex c.toNat 4
  else "\\U" ++ hex c.toNat 8

/-- One code point inside quotes. -/
def quotedPart (mark : Char) (c : CodePoint) : Text :=
  if c = .scalar mark ∨ c = .scalar '\\' then [.scalar '\\', c]
  else if c = .scalar '\t' then "\\t"
  else if c = .scalar '\n' then "\\n"
  else if c = .scalar '\r' then "\\r"
  else if c.isPrintable then [c]
  else numbered c

/-- The text in quotes. -/
def quoted (t : Text) : Text :=
  let mark := t.quoteMark
  [.scalar mark] ++ t.flatMap (quotedPart mark) ++ [.scalar mark]

/-- The text with every code point beyond ASCII given by its number. -/
def inAscii (t : Text) : Text := t.flatMap fun c => if c.toNat < 0x80 then [c] else numbered c

/-- The text with every surrogate given by its number. -/
def withNumbers (t : Text) : Text := t.flatMap fun c => if c.IsScalar then [c] else numbered c

example : quoted "it" = "'it'" := by decide +kernel

example : quoted "it's" = "\"it's\"" := by decide +kernel

end Text

end Scaffold
