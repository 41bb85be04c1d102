import Scaffold.Yaml.Basic
import Scaffold.Yaml.Cursor

/-!
# Written scalars

A scalar is written in single quotes, in double quotes or plain, and may go over several lines.  A
single line break in it stands for a blank, of several all but the first count, and the blanks
around them do not.

* `Written.quoted` reads a scalar behind its opening quote.  Between double quotes a backslash
  begins an escape.
* `Written.plain` reads a plain scalar.  It ends where a key or a comment begins or, outside
  brackets, where a line begins too far to the left.

Both answer the text of the scalar and what follows it.
-/

namespace Scaffold

namespace Written

/-- A blank or a tab. -/
def isBlank (c : CodePoint) : Bool := c = .scalar ' ' || c = .scalar '\t'

/-- What stands for a line break and for the `others` that follow it. -/
def folded (first others : Text) : Text :=
  if first ≠ Text.ofString "\n" then first ++ others else if others = [] then " " else others

/-! ### Scalars in quotes -/

/-- The line breaks after a line break inside quotes, and what follows them and the blanks between
them.  No mark of a document may begin a line there. -/
def breaks : (fuel : Nat) → Text → Except YamlError (Text × Text)
  | 0, _ => .error .malformed
  | fuel + 1, t =>
    if Text.isDocumentMark t then .error .malformed
    else
      match Text.lineBreak? (t.dropWhile isBlank) with
      | some (b, rest) => do
        let (bs, rest) ← breaks fuel rest
        return (b ++ bs, rest)
      | none => .ok ([], t.dropWhile isBlank)

/-- What the blanks and line breaks inside quotes stand for, and what follows them. -/
def space (t : Text) : Except YamlError (Text × Text) :=
  let (blanks, rest) := t.spanWhile isBlank
  match Text.lineBreak? rest with
  | some (b, rest) => do
    let (bs, rest) ← breaks (rest.length + 1) rest
    return (folded b bs, rest)
  | none => .ok (blanks, rest)

/-- The code point that a letter stands for after a backslash. -/
def escaped? : Char → Option Char
  | '0' => some '\x00'
  | 'a' => some '\x07'
  | 'b' => some '\x08'
  | 't' | '\t' => some '\t'
  | 'n' => some '\n'
  | 'v' => some '\x0b'
  | 'f' => some '\x0c'
  | 'r' => some '\r'
  | 'e' => some '\x1b'
  | ' ' => some ' '
  | '"' => some '"'
  | '/' => some '/'
  | '\\' => some '\\'
  | 'N' => some '\u0085'
  | '_' => some '\u00A0'
  | 'L' => some '\u2028'
  | 'P' => some '\u2029'
  | _ => none

/-- The number of hexadecimal digits after a letter that begins a numbered escape. -/
def escapeWidth? : Char → Option Nat
  | 'x' => some 2
  | 'u' => some 4
  | 'U' => some 8
  | _ => none

/-- The code point with the number that `width` hexadecimal digits write, and what follows them. -/
def numbered (width : Nat) (t : Text) : Except YamlError (Text × Text) :=
  let digits := t.take width
  if digits.length < width ∨ digits.any (·.hexValue?.isNone) then .error .malformed
  else
    let n := digits.foldl (fun n d => 16 * n + d.hexValue?.getD 0) 0
    match CodePoint.ofNat? n with
    | some c => .ok ([c], t.drop width)
    | none => .error (.scalar (if 0x7FFFFFFF < n then .hugeCodePoint else .noCodePoint))

/-- What an escape stands for, and what follows it; `t` follows the backslash.  A line break stands
for nothing. -/
def escape (t : Text) : Except YamlError (Text × Text) :=
  match Text.lineBreak? t with
  | some (_, rest) => breaks (rest.length + 1) rest
  | none =>
    match t with
    | .scalar letter :: rest =>
      match escaped? letter, escapeWidth? letter with
      | some c, _ => .ok ([.scalar c], rest)
      | none, some width => numbered width rest
      | none, none => .error .malformed
    | _ => .error .malformed

/-- The text behind an opening quote up to the closing one, and what follows it. -/
def quotedWithin (mark : Char) : (fuel : Nat) → Text → Except YamlError (Text × Text)
  | 0, _ => .error .malformed
  | _ + 1, [] => .error .malformed
  | fuel + 1, c :: t => do
    if c = .scalar mark then
      if mark = '\'' ∧ t.head? = some (.scalar '\'') then
        let (more, rest) ← quotedWithin mark fuel (t.drop 1)
        return (c :: more, rest)
      else return ([], t)
    else if isBlank c || c.isBreak then
      let (s, rest) ← space (c :: t)
      let (more, rest) ← quotedWithin mark fuel rest
      return (s ++ more, rest)
    else if mark = '"' ∧ c = .scalar '\\' then
      let (s, rest) ← escape t
      let (more, rest) ← quotedWithin mark fuel rest
      return (s ++ more, rest)
    else
      let (more, rest) ← quotedWithin mark fuel t
      return (c :: more, rest)

/-- The text behind an opening quote up to the closing one, and what follows it. -/
def quoted (mark : Char) (t : Text) : Except YamlError (Text × Text) :=
  quotedWithin mark (t.length + 1) t

/-! ### Plain scalars -/

/-- A bracket or a comma. -/
def isBracket : CodePoint → Bool := CodePoint.satisfies fun c => ",[]\x7b\x7d".toList.contains c

/-- A plain scalar may begin here. -/
def startsPlain (inBrackets : Bool) : Text → Bool
  | [] => false
  | c :: t =>
    if c = .scalar '-' then !Text.endsWord t
    else if c = .scalar '?' || c = .scalar ':' then !Text.endsWord t && !inBrackets
    else
      !Text.endsWord (c :: t) && !isBracket c
        && !c.satisfies fun c => "#&*!|>'\"%@\x60".toList.contains c

/-- The word at the beginning of a text, which may be empty.  A colon ends it where it makes the
word a key. -/
def word (inBrackets : Bool) : Text → Text
  | [] => []
  | c :: t =>
    if Text.endsWord (c :: t) then []
    else if c = .scalar ':' && (Text.endsWord t || (inBrackets && t.head?.any isBracket)) then []
    else if inBrackets && (isBracket c || c = .scalar '?') then []
    else c :: word inBrackets t

/-- The line breaks between two words after the first one, the column where the next word begins,
and what follows; the column is missing where a mark of a document begins a line. -/
def lines : (fuel : Nat) → (column : Nat) → Text → Text × Option Nat × Text
  | 0, column, t => ([], some column, t)
  | fuel + 1, column, t =>
    match t with
    | .scalar ' ' :: rest => lines fuel (column + 1) rest
    | t =>
      match Text.lineBreak? t with
      | none => ([], some column, t)
      | some (b, rest) =>
        if Text.isDocumentMark rest then (b, none, rest)
        else
          let (bs, column, rest) := lines fuel 0 rest
          (b ++ bs, column, rest)

/-- What stands between a word and the next one: the text for it, if a word may follow, whether a
line ends, and what follows. -/
def between (inBrackets : Bool) (least : Nat) (t : Text) : Option Text × Bool × Text :=
  let (blanks, rest) := t.spanWhile (· = .scalar ' ')
  match Text.lineBreak? rest with
  | none => (if blanks = [] then none else some blanks, false, rest)
  | some (b, rest) =>
    if Text.isDocumentMark rest then (none, true, rest)
    else
      let (bs, column, rest) := lines (rest.length + 1) 0 rest
      let mayFollow := column.any fun column => inBrackets || least ≤ column
      (if mayFollow then some (folded b bs) else none, true, rest)

/-- A plain scalar: its text, whether a line ends behind its last word, and what follows. -/
structure Plain where
  /-- The text. -/
  text : Text
  /-- A line ends behind the last word. -/
  endsLine : Bool
  /-- What follows. -/
  rest : Text

/-- The rest of a plain scalar behind one of its words. -/
def plainRest (inBrackets : Bool) (least : Nat) : (fuel : Nat) → Text → Plain
  | 0, t => ⟨[], false, t⟩
  | fuel + 1, t =>
    let (gap, endsLine, rest) := between inBrackets least t
    let w := if rest.head? = some (.scalar '#') then [] else word inBrackets rest
    match gap with
    | none => ⟨[], endsLine, rest⟩
    | some gap =>
      if w = [] then ⟨[], endsLine, rest⟩
      else
        let more := plainRest inBrackets least fuel (rest.drop w.length)
        { more with text := gap ++ w ++ more.text }

/-- A plain scalar.  Outside brackets a word on a later line has to stand in the column `least` or
to the right of it. -/
def plain (inBrackets : Bool) (least : Nat) (t : Text) : Plain :=
  let w := word inBrackets t
  let more := plainRest inBrackets least (t.length + 1) (t.drop w.length)
  { more with text := w ++ more.text }

end Written

end Scaffold
