import Scaffold.Yaml.Written

/-!
# Tokens of a document

A document is a sequence of tokens: scalars, the marks that are written, and those that indentation
stands for.  `YamlToken.ofDocument` takes a document apart.

A colon makes a key of what stands before it on the line, so the mark of a key is found only when
its colon is.  Until then the token is a *candidate* (`Candidate`).  There is one candidate at most
outside brackets and one inside every pair of brackets that is open.  A candidate is given up after
the end of its line or after 1024 code points; but a token in the column of a block mapping has to
be a key, and giving it up is a fault.

A fault ends the tokens.  A candidate that is still open where the fault is found is no token yet.
-/

namespace Scaffold

/-- A token of a document. -/
inductive YamlToken where
  /-- The mark of the beginning of the document. -/
  | documentStart
  /-- The mark of the end of the document. -/
  | documentEnd
  /-- Nothing more follows. -/
  | done
  /-- A scalar, plain or in quotes. -/
  | scalar (isPlain : Bool) (t : Text)
  /-- The mark of a key. -/
  | key
  /-- The mark of a value. -/
  | value
  /-- The mark of an item of a block list. -/
  | item
  /-- A block list begins. -/
  | openList
  /-- A block mapping begins. -/
  | openMapping
  /-- A block ends. -/
  | close
  /-- A bracket opens a list. -/
  | openBracket
  /-- A bracket closes a list. -/
  | closeBracket
  /-- A brace opens a mapping. -/
  | openBrace
  /-- A brace closes a mapping. -/
  | closeBrace
  /-- A comma. -/
  | comma
  /-- The document cannot be read further. -/
  | broken (e : YamlError)
  deriving DecidableEq, Repr

/-- A token that may turn out to be a key. -/
structure Candidate where
  /-- The number of tokens before it. -/
  number : Nat
  /-- It has to be a key. -/
  isRequired : Bool
  /-- Where it begins. -/
  place : Cursor
  deriving DecidableEq, Repr

/-- How far a document has been taken apart. -/
structure YamlScan where
  /-- The place of the next token. -/
  cursor : Cursor
  /-- The tokens so far, the last one first. -/
  tokens : List YamlToken := []
  /-- The columns of the blocks that are open, the innermost first. -/
  blocks : List Nat := []
  /-- The candidate between the innermost brackets that are open. -/
  candidate : Option Candidate := none
  /-- The candidates further out, one for each pair of brackets that is open. -/
  outer : List (Option Candidate) := []
  /-- The next token may be a key. -/
  mayBeKey : Bool := true

namespace YamlScan

variable (s : YamlScan)

/-- Brackets are open. -/
def inBrackets : Bool := !s.outer.isEmpty

/-- The column of the innermost block is left of `column`; every column is right of no block. -/
def isInside (column : Nat) : Bool := s.blocks.head?.all (· < column)

/-- Adds a token. -/
def add (t : YamlToken) : YamlScan := { s with tokens := t :: s.tokens }

/-- Adds a token and goes on past the `n` code points that it is written with. -/
def take (t : YamlToken) (n : Nat) : YamlScan :=
  { s with tokens := t :: s.tokens, cursor := s.cursor.past n }

/-- Puts a token before the one with the number `n`. -/
def insert (n : Nat) (t : YamlToken) : YamlScan :=
  let later := s.tokens.length - n
  { s with tokens := s.tokens.take later ++ t :: s.tokens.drop later }

/-! ### Candidates -/

/-- The candidate is too far back to be a key. -/
def isStale (c : Candidate) : Bool :=
  c.place.line ≠ s.cursor.line || 1024 < s.cursor.index - c.place.index

/-- The candidate, unless it is too far back. -/
def keep (candidate : Option Candidate) : Except YamlError (Option Candidate) :=
  match candidate with
  | none => .ok none
  | some c =>
    if !s.isStale c then .ok (some c) else if c.isRequired then .error .malformed else .ok none

/-- Gives up the candidates that are too far back. -/
def dropStale : Except YamlError YamlScan := do
  let candidate ← s.keep s.candidate
  let outer ← s.outer.mapM s.keep
  return { s with candidate, outer }

/-- Gives up the candidate. -/
def giveUp : Except YamlError YamlScan :=
  if s.candidate.any (·.isRequired) then .error .malformed else .ok { s with candidate := none }

/-- Makes the next token a candidate where it may be a key. -/
def propose : Except YamlError YamlScan :=
  if s.mayBeKey then do
    let isRequired := !s.inBrackets && s.blocks.head? = some s.cursor.column
    let s ← s.giveUp
    return { s with candidate := some ⟨s.tokens.length, isRequired, s.cursor⟩ }
  else .ok s

/-! ### Blocks -/

/-- Closes blocks as `isOpen` says of their columns. -/
def closeWhile (isOpen : Nat → Bool) : List Nat → List YamlToken → List Nat × List YamlToken
  | [], ts => ([], ts)
  | b :: bs, ts => if isOpen b then closeWhile isOpen bs (.close :: ts) else (b :: bs, ts)

/-- Closes the blocks whose columns satisfy `isOpen`, the innermost first. -/
def close (isOpen : Nat → Bool) : YamlScan :=
  if s.inBrackets then s
  else
    let (blocks, tokens) := closeWhile isOpen s.blocks s.tokens
    { s with blocks, tokens }

/-- Opens a block in a column that is to the right of those of all others; its mark comes before the
token with the number `n`. -/
def openBlock (column n : Nat) (mark : YamlToken) : YamlScan :=
  if s.isInside column then { s.insert n mark with blocks := column :: s.blocks } else s

/-! ### The next token -/

/-- The mark of the beginning or the end of a document. -/
def documentMark (mark : YamlToken) : Except YamlError YamlScan := do
  let s ← (s.close fun _ => true).giveUp
  return { s with mayBeKey := false }.take mark 3

/-- An opening bracket. -/
def bracket (mark : YamlToken) : Except YamlError YamlScan := do
  let s ← s.propose
  return { s with candidate := none, outer := s.candidate :: s.outer, mayBeKey := true }.take mark 1

/-- A closing bracket. -/
def closingBracket (mark : YamlToken) : Except YamlError YamlScan := do
  let s ← s.giveUp
  match s.outer with
  | [] => .error .malformed
  | candidate :: outer => return { s with candidate, outer, mayBeKey := false }.take mark 1

/-- A comma. -/
def comma : Except YamlError YamlScan := do
  return { ← s.giveUp with mayBeKey := true }.take .comma 1

/-- The mark of an item. -/
def item : Except YamlError YamlScan := do
  if !s.inBrackets && !s.mayBeKey then throw .malformed
  let s := if s.inBrackets then s else s.openBlock s.cursor.column s.tokens.length .openList
  return { ← s.giveUp with mayBeKey := true }.take .item 1

/-- The mark of a key that is written out. -/
def key : Except YamlError YamlScan := do
  if !s.inBrackets && !s.mayBeKey then throw .malformed
  let s := if s.inBrackets then s else s.openBlock s.cursor.column s.tokens.length .openMapping
  return { ← s.giveUp with mayBeKey := !s.inBrackets }.take .key 1

/-- The mark of a value.  It makes a key of the candidate. -/
def value : Except YamlError YamlScan := do
  match s.candidate with
  | some c =>
    let s := s.insert c.number .key
    let s := if s.inBrackets then s else s.openBlock c.place.column c.number .openMapping
    return { s with candidate := none, mayBeKey := false }.take .value 1
  | none =>
    if !s.inBrackets && !s.mayBeKey then throw .malformed
    let s := if s.inBrackets then s else s.openBlock s.cursor.column s.tokens.length .openMapping
    return { s with mayBeKey := !s.inBrackets }.take .value 1

/-- A scalar in quotes. -/
def quoted (mark : Char) : Except YamlError YamlScan := do
  let s ← s.propose
  let (t, rest) ← Written.quoted mark (s.cursor.rest.drop 1)
  return { s with cursor := s.cursor.upTo rest, mayBeKey := false }.add (.scalar false t)

/-- A plain scalar. -/
def plain : Except YamlError YamlScan := do
  let s ← s.propose
  let least := (s.blocks.head?.map (· + 1)).getD 0
  let p := Written.plain s.inBrackets least s.cursor.rest
  return { s with cursor := s.cursor.upTo p.rest, mayBeKey := p.endsLine }.add (.scalar true p.text)

/-- Takes the token that begins with `c`, before `rest`. -/
def takeToken (c : CodePoint) (rest : Text) : Except YamlError YamlScan :=
  let ends := rest.endsWord
  if s.cursor.isDocumentStart then s.documentMark .documentStart
  else if s.cursor.isDocumentEnd then s.documentMark .documentEnd
  else if c = .scalar '[' then s.bracket .openBracket
  else if c = .scalar '\x7b' then s.bracket .openBrace
  else if c = .scalar ']' then s.closingBracket .closeBracket
  else if c = .scalar '\x7d' then s.closingBracket .closeBrace
  else if c = .scalar ',' then s.comma
  else if c = .scalar '-' ∧ ends then s.item
  else if c = .scalar '?' ∧ (s.inBrackets ∨ ends) then s.key
  else if c = .scalar ':' ∧ (s.inBrackets ∨ ends) then s.value
  else if c = .scalar '\'' then s.quoted '\''
  else if c = .scalar '"' then s.quoted '"'
  else if Written.startsPlain s.inBrackets (c :: rest) then s.plain
  else .error .malformed

/-- Goes on to the place of the next token, and closes the blocks to the right of it. -/
def approach : Except YamlError YamlScan := do
  let (endsLine, cursor) := s.cursor.nextToken
  let s ← { s with cursor, mayBeKey := s.mayBeKey || (endsLine && !s.inBrackets) }.dropStale
  return s.close (s.cursor.column < ·)

/-- The tokens up to a fault: those before the first candidate, and the fault. -/
def brokenAt (e : YamlError) : List YamlToken :=
  let candidates := ((s.candidate :: s.outer).filterMap id).filter (!s.isStale ·)
  let known := (candidates.map (·.number)).foldl min s.tokens.length
  s.tokens.reverse.take known ++ [.broken e]

/-- Takes the next token and goes on behind it; at the end of the document nothing but `done`
follows. -/
def step : Except YamlError (Bool × YamlScan) := do
  let s ← s.approach
  match s.cursor.rest with
  | [] => return (true, (← (s.close fun _ => true).giveUp).add .done)
  | c :: rest => return (false, ← s.takeToken c rest)

/-- All tokens, from those so far on; `fuel` bounds the number of those that follow. -/
def runWithin (s : YamlScan) : (fuel : Nat) → List YamlToken
  | 0 => s.brokenAt .malformed
  | fuel + 1 =>
    match s.step with
    | .error e => s.brokenAt e
    | .ok (true, s) => s.tokens.reverse
    | .ok (false, s) => runWithin s fuel

end YamlScan

/-- The tokens of a document.  Every token but the last is written with a code point. -/
def YamlToken.ofDocument (t : Text) : List YamlToken :=
  YamlScan.runWithin { cursor := .start t } (t.length + 1)

end Scaffold
