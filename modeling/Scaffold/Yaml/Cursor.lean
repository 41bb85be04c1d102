import Scaffold.Text.Basic

/-!
# Places in a document

A document is read from left to right.  A `Cursor` is a place in it, with the line and the column
of the place and what follows.  `Cursor.past` goes on, and `Cursor.nextToken` passes what stands
between tokens: blanks, line breaks and comments.

A line feed, a carriage return, both together, and the next-line mark all end a line and mean a line
feed inside a scalar; the separators of lines and of paragraphs end a line too, but stand for
themselves (`Text.lineBreak?`).
-/

namespace Scaffold

/-- A line ends here. -/
def CodePoint.isBreak (c : CodePoint) : Bool :=
  c = .scalar '\n' || c = .scalar '\r' || c = .scalar '\u0085' || c = .scalar '\u2028'
    || c = .scalar '\u2029'

namespace Text

/-- What the line break at the beginning of a text means inside a scalar, and what follows it. -/
def lineBreak? : Text → Option (Text × Text)
  | .scalar '\r' :: .scalar '\n' :: t => some ("\n", t)
  | c :: t =>
    if c = .scalar '\n' ∨ c = .scalar '\r' ∨ c = .scalar '\u0085' then some ("\n", t)
    else if c.isBreak then some ([c], t)
    else none
  | [] => none

/-- The text begins with a blank, a line break or nothing. -/
def endsWord : Text → Bool
  | [] => true
  | c :: _ => c = .scalar ' ' || c = .scalar '\t' || c.isBreak

/-- The text begins with three times the mark `c` and then the end of a word. -/
def isTriple (c : Char) : Text → Bool
  | x :: y :: z :: t => x = .scalar c && y = .scalar c && z = .scalar c && endsWord t
  | _ => false

/-- The text, which begins a line, begins with the mark of the beginning or the end of a
document. -/
def isDocumentMark (t : Text) : Bool := isTriple '-' t || isTriple '.' t

end Text

/-- A place in a document. -/
structure Cursor where
  /-- The number of code points before it. -/
  index : Nat
  /-- The number of its line. -/
  line : Nat
  /-- The number of its column. -/
  column : Nat
  /-- What follows. -/
  rest : Text
  deriving DecidableEq, Repr

namespace Cursor

/-- The place at the beginning of a document. -/
def start (t : Text) : Cursor := ⟨0, 0, 0, t⟩

/-- The place after the next code point.  A mark of the byte order takes no column. -/
def next (c : Cursor) : Cursor :=
  match c.rest with
  | [] => c
  | x :: t =>
    if x.isBreak && !(x = .scalar '\r' && t.head? = some (.scalar '\n')) then
      ⟨c.index + 1, c.line + 1, 0, t⟩
    else if x = .scalar '\uFEFF' then ⟨c.index + 1, c.line, c.column, t⟩
    else ⟨c.index + 1, c.line, c.column + 1, t⟩

/-- The place after the next `n` code points. -/
def past (c : Cursor) : (n : Nat) → Cursor
  | 0 => c
  | n + 1 => past c.next n

/-- The place where what follows is `rest`, the end of what follows now. -/
def upTo (c : Cursor) (rest : Text) : Cursor := c.past (c.rest.length - rest.length)

/-- The rest of the line without the comment at its beginning, if there is one. -/
def skipComment (t : Text) : Text :=
  if t.head? = some (.scalar '#') then t.dropWhile (!·.isBreak) else t

/-- Passes blanks, line breaks and comments, no more than `fuel` lines of them, and tells whether a
line ended. -/
def nextTokenWithin (endsLine : Bool) : (fuel : Nat) → Text → Bool × Text
  | 0, t => (endsLine, t)
  | fuel + 1, t =>
    let t := skipComment (t.dropWhile (· = .scalar ' '))
    match Text.lineBreak? t with
    | some (_, rest) => nextTokenWithin true fuel rest
    | none => (endsLine, t)

/-- The place of the next token, and whether a line ends before it.  A mark of the byte order may
stand at the very beginning. -/
def nextToken (c : Cursor) : Bool × Cursor :=
  let c := if c.index = 0 ∧ c.rest.head? = some (.scalar '\uFEFF') then c.next else c
  let (endsLine, rest) := nextTokenWithin false (c.rest.length + 1) c.rest
  (endsLine, c.upTo rest)

/-- The mark of the beginning of a document is here. -/
def isDocumentStart (c : Cursor) : Bool := c.column = 0 && c.rest.isTriple '-'

/-- The mark of the end of a document is here. -/
def isDocumentEnd (c : Cursor) : Bool := c.column = 0 && c.rest.isTriple '.'

end Cursor

end Scaffold
