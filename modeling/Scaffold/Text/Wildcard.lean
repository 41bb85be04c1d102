import Scaffold.Text.Basic

/-!
# Wildcards

A pattern for names: `*` stands for any text, `?` for any code point, and brackets for one of the
code points in them, or for any other one after `!`.  In brackets `a-z` is a range, and a closing
bracket that comes first is a member.  A range that runs backwards is left out with both of its
ends, and `!` counts as the first mark also where only such a range stands before it.  A bracket
that is not closed stands for itself.

`Wildcard.read` takes a pattern apart, and `Wildcard.fits` matches a text in one pass: after each
code point it knows which beginnings of the pattern stand for what was read.
-/

namespace Scaffold

/-- A part of a pattern. -/
inductive Wildcard where
  /-- Any text. -/
  | any
  /-- Any code point. -/
  | single
  /-- A code point in one of the ranges, or in none of them. -/
  | oneOf (negated : Bool) (ranges : List (Nat × Nat))
  /-- This code point. -/
  | exactly (c : CodePoint)
  deriving DecidableEq, Repr

namespace Wildcard

/-- Cuts the contents of brackets at the dashes of ranges.  A dash makes a range when it comes after
the next `ends` code points, so that one stands before it that ends no other range. -/
def pieces (ends : Nat) : Text → List Text
  | [] => [[]]
  | c :: t =>
    if ends = 0 ∧ c = .scalar '-' then [] :: pieces 2 t
    else
      match pieces (ends - 1) t with
      | [] => [[c]]
      | p :: ps => (c :: p) :: ps

/-- A dash that nothing follows is a member. -/
def keepLastDash : List Text → List Text
  | [] => []
  | [p, []] => [p ++ "-"]
  | p :: ps => p :: keepLastDash ps

/-- Leaves out the ranges that run backwards, the last of them first. -/
def dropBackwards : List Text → List Text
  | [] => []
  | p :: ps =>
    match dropBackwards ps with
    | [] => [p]
    | q :: qs =>
      match p.getLast?, q.head? with
      | some a, some b =>
        if b.toNat < a.toNat then (p.dropLast ++ q.drop 1) :: qs else p :: q :: qs
      | _, _ => p :: q :: qs

/-- The ranges between pieces; a dash that nothing precedes is a member. -/
def links : List Text → List (Nat × Nat)
  | p :: q :: ps =>
    let dash := ('-'.toNat, '-'.toNat)
    (match p.getLast?, q.head? with
      | some a, some b => (a.toNat, b.toNat)
      | _, _ => dash) :: links (q :: ps)
  | _ => []

/-- The members and ranges of pieces. -/
def ranges (ps : List Text) : List (Nat × Nat) :=
  ps.flatten.map (fun c => (c.toNat, c.toNat)) ++ links ps

/-- The part that the contents of brackets stand for. -/
def ofContents (inside : Text) : Wildcard :=
  let ends := if inside.startsWith "!" then 2 else 1
  match dropBackwards (keepLastDash (pieces ends inside)) with
  | (c :: p) :: ps => if c = .scalar '!' then oneOf true (ranges (p :: ps))
    else oneOf false (ranges ((c :: p) :: ps))
  | ps => oneOf false (ranges ps)

/-- The part that an opening bracket begins, and what follows it, if the bracket is closed. -/
def bracket? (t : Text) : Option (Wildcard × Text) :=
  let (mark, u) : Text × Text := match t with
    | .scalar '!' :: r => ("!", r)
    | r => ([], r)
  let (first, u) : Text × Text := match u with
    | .scalar ']' :: r => ("]", r)
    | r => ([], r)
  let (inside, rest) := Text.spanWhile (· ≠ .scalar ']') u
  match rest with
  | [] => none
  | _ :: rest => some (ofContents (mark ++ first ++ inside), rest)

/-- The parts of a written pattern; `fuel` bounds their number. -/
def readWithin : (fuel : Nat) → Text → List Wildcard
  | 0, _ => []
  | _ + 1, [] => []
  | fuel + 1, c :: t =>
    if c = .scalar '*' then any :: readWithin fuel t
    else if c = .scalar '?' then single :: readWithin fuel t
    else if c = .scalar '[' then
      match bracket? t with
      | some (part, rest) => part :: readWithin fuel rest
      | none => exactly c :: readWithin fuel t
    else exactly c :: readWithin fuel t

/-- The parts of a written pattern.  Every part takes at least one code point. -/
def read (t : Text) : List Wildcard := readWithin t.length t

/-- The code point is one that a part stands for. -/
def accepts (c : CodePoint) : Wildcard → Bool
  | any | single => true
  | oneOf negated ranges =>
    ranges.any (fun (lo, hi) => lo ≤ c.toNat && c.toNat ≤ hi) != negated
  | exactly d => c = d

/-- Which beginnings of a pattern stand for the empty text, the shortest first; `before` tells
whether what precedes `ws` does. -/
def blank (before : Bool) : List Wildcard → List Bool
  | [] => [before]
  | w :: ws => before :: blank (before && w = any) ws

/-- Which beginnings of a pattern stand for a text that ends in `c`, from those that stand for it
without `c`; `before` tells whether what precedes `ws` stands for the whole text. -/
def advance (c : CodePoint) (before : Bool) : List Wildcard → List Bool → List Bool
  | w :: ws, old :: olds =>
    let next := if w = any then before || olds.headD false else old && accepts c w
    before :: advance c next ws olds
  | _, _ => [before]

/-- The whole text is one that the pattern stands for. -/
def fits (ws : List Wildcard) (t : Text) : Bool :=
  (t.foldl (fun row c => advance c false ws row) (blank true ws)).getLast?.getD false

example : fits (read "*.t[a-c!]?") "x.t.tbs" = true := by decide +kernel

example : fits (read "[b-a!x]") "x" = false := by decide +kernel

/-- The written pattern has a part that is no code point. -/
def isPattern (t : Text) : Bool := t.any fun c => "*?[".toList.any fun d => c = .scalar d

end Wildcard

end Scaffold
