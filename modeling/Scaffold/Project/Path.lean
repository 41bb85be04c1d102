import Scaffold.Text.Basic

/-!
# Paths

A path is written as names between slashes.  Empty names and `.` mean nothing and are dropped; `..`
is kept, since only the disk knows what it leads to.  Two slashes at the beginning are told apart
from one, as the standards for paths allow.

* `Path.read` and `Path.written` go between the written form and the names.
* `Path.join` goes on from a path; a path from the top starts anew.
* `Path.normal` resolves `..` on the names alone.
-/

namespace Scaffold

/-- The slashes at the beginning of a path. -/
inductive PathStart where
  /-- None: the path starts in the current directory. -/
  | here
  /-- One: the path starts at the top. -/
  | top
  /-- Two, which are kept. -/
  | doubleTop
  deriving DecidableEq, Repr

/-- A path. -/
structure Path where
  /-- Where the path starts. -/
  start : PathStart
  /-- The names on the way. -/
  names : List Text
  deriving DecidableEq, Repr

namespace PathStart

/-- The slashes of a start. -/
def written : PathStart → Text
  | here => []
  | top => "/"
  | doubleTop => "//"

/-- The start of a written path, by the number of its slashes. -/
def ofCount : Nat → PathStart
  | 0 => here
  | 2 => doubleTop
  | _ => top

end PathStart

namespace Path

/-- The names in a written path. -/
def namesOf (t : Text) : List Text :=
  (Text.splitOn '/' t).filter fun name => name ≠ [] ∧ name ≠ Text.ofString "."

/-- Reads the written form of a path. -/
def read (t : Text) : Path :=
  ⟨.ofCount (t.takeWhile (· = .scalar '/')).length, namesOf t⟩

instance : Coe Text Path := ⟨read⟩

/-- The written form of a path; the empty path is the current directory. -/
def written (p : Path) : Text :=
  if p.start = .here ∧ p.names = [] then "." else p.start.written ++ Text.join "/" p.names

/-- The path starts at the top. -/
def isAbsolute (p : Path) : Bool := p.start ≠ .here

/-- Goes on from `p` along `q`. -/
def join (p q : Path) : Path := if q.isAbsolute then q else ⟨p.start, p.names ++ q.names⟩

/-- The path without its last name. -/
def parent (p : Path) : Path := ⟨p.start, p.names.dropLast⟩

/-- The last name of a path; empty if it has none. -/
def name (p : Path) : Text := p.names.getLast?.getD []

/-- The names of a path from the top after resolving every `..`; it stays at the top. -/
def resolveNames (done : List Text) : List Text → List Text
  | [] => done
  | name :: names =>
    if name = Text.ofString ".." then resolveNames done.dropLast names
    else resolveNames (done ++ [name]) names

/-- The path from the top that `p` means in the directory with names `here`. -/
def normal (here : List Text) (p : Path) : Path :=
  ⟨.top, resolveNames (if p.isAbsolute then [] else here) p.names⟩

/-- The order of lists of names by their first difference. -/
def leNames : List Text → List Text → Bool
  | [], _ => true
  | _ :: _, [] => false
  | n :: ns, m :: ms => if n = m then leNames ns ms else Text.le n m

/-- The order of paths: by their starts, then name by name. -/
def le (p q : Path) : Bool :=
  if p.start = q.start then leNames p.names q.names else Text.le p.start.written q.start.written

end Path

/-- The part of a file name before its last point; a point at either end is no such point. -/
def Text.stem (name : Text) : Text :=
  let after := (name.reverse.takeWhile (· ≠ .scalar '.')).length
  if after = 0 ∨ name.length ≤ after + 1 then name else name.take (name.length - after - 1)

end Scaffold
