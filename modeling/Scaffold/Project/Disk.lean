import Scaffold.Project.Path
import Scaffold.Text.Utf8

/-!
# Disks

A disk is a tree of directories and files, given by the entry at each place; a place is the list of
names that leads there from the top.  The top itself is always a directory.

`Disk.locate` follows a path from the current directory.  Every name but the last has to lead to a
directory; when it does not, a `Refusal` says why.  The last name may be free.

There are no links, every entry may be read and written, and no device fails: what a disk refuses,
it refuses for the path alone.
-/

namespace Scaffold

/-- The names that lead to an entry from the top. -/
abbrev Place := List Text

/-- What stands at a place. -/
inductive Entry where
  /-- A file with its contents. -/
  | file (content : Bytes)
  /-- A directory. -/
  | directory
  deriving DecidableEq, Repr

/-- Why a path cannot be followed or used. -/
inductive Refusal where
  /-- Nothing is there. -/
  | notFound
  /-- Something is there already. -/
  | taken
  /-- Something on the way is no directory. -/
  | notDirectory
  /-- A directory is there. -/
  | isDirectory
  /-- A name, or the path as a whole, is too long. -/
  | nameTooLong
  deriving DecidableEq, Repr

/-- The number of a refusal. -/
def Refusal.number : Refusal → Nat
  | notFound => 2
  | taken => 17
  | notDirectory => 20
  | isDirectory => 21
  | nameTooLong => 36

/-- The wording of a refusal. -/
def Refusal.message : Refusal → Text
  | notFound => "No such file or directory"
  | taken => "File exists"
  | notDirectory => "Not a directory"
  | isDirectory => "Is a directory"
  | nameTooLong => "File name too long"

/-- A tree of directories and files, and the current directory. -/
structure Disk where
  /-- The entries below the top with their places. -/
  entries : List (Place × Entry)
  /-- The current directory. -/
  here : Place
  deriving DecidableEq, Repr

namespace Disk

/-- The entry at a place. -/
def find? (d : Disk) (p : Place) : Option Entry :=
  if p = [] then some .directory else d.entries.lookup p

/-- The entry `e` at the place `p` among others. -/
def putAmong (p : Place) (e : Entry) : List (Place × Entry) → List (Place × Entry)
  | [] => [(p, e)]
  | (q, f) :: rest => if q = p then (p, e) :: rest else (q, f) :: putAmong p e rest

/-- The disk with the entry `e` at the place `p`. -/
def put (d : Disk) (p : Place) (e : Entry) : Disk := { d with entries := putAmong p e d.entries }

/-- The disk without the entry at the place `p`. -/
def erase (d : Disk) (p : Place) : Disk :=
  { d with entries := d.entries.filter fun (q, _) => q ≠ p }

theorem lookup_putAmong (p q : Place) (e : Entry) (es : List (Place × Entry)) :
    (putAmong p e es).lookup q = if q = p then some e else es.lookup q := by
  induction es with
  | nil =>
    by_cases h : q = p
    · subst h; simp [putAmong]
    · have hq : (q == p) = false := by simpa using h
      simp [putAmong, List.lookup_cons, h, hq]
  | cons x es ih =>
    obtain ⟨r, f⟩ := x
    simp only [putAmong]
    split
    · rename_i h
      subst h
      by_cases hq : q = r
      · subst hq; simp
      · have hb : (q == r) = false := by simpa using hq
        simp [List.lookup_cons, hq, hb]
    · rename_i h
      by_cases hq : q = r
      · subst hq; simp [h]
      · have hb : (q == r) = false := by simpa using hq
        simp [List.lookup_cons, hb, ih]

theorem find?_put (d : Disk) {p : Place} (q : Place) (e : Entry) (h : p ≠ []) :
    (d.put p e).find? q = if q = p then some e else d.find? q := by
  by_cases hq : q = []
  · subst hq; simp [find?, h.symm]
  · simp [find?, put, hq, lookup_putAmong]

/-- The names in a directory with their entries. -/
def children (d : Disk) (p : Place) : List (Text × Entry) :=
  d.entries.filterMap fun (q, e) =>
    match q.getLast? with
    | some name => if q.dropLast = p then some (name, e) else none
    | none => none

/-- The number of bytes that a code point of a name takes. -/
def nameBytes : CodePoint → Nat
  | .scalar c => c.utf8Size
  | .surrogate _ => 1

/-- The text takes more than `limit` bytes. -/
def takesOver (limit : Nat) (t : Text) : Bool := limit < t.foldl (fun n c => n + nameBytes c) 0

/-- The name is longer than 255 bytes. -/
def isTooLong (name : Text) : Bool := takesOver 255 name

/-- Follows names from a directory: the place they lead to and what stands there, if anything. -/
def walk (d : Disk) (p : Place) : List Text → Except Refusal (Place × Option Entry)
  | [] => .ok (p, some .directory)
  | name :: names =>
    if name = Text.ofString ".." then walk d p.dropLast names
    else if isTooLong name then .error .nameTooLong
    else
      match d.find? (p ++ [name]) with
      | none => if names = [] then .ok (p ++ [name], none) else .error .notFound
      | some .directory => walk d (p ++ [name]) names
      | some (.file b) =>
        if names = [] then .ok (p ++ [name], some (.file b)) else .error .notDirectory

/-- The place that a path leads to and what stands there, if anything.  The written form of the path
has at most 4095 bytes. -/
def locate (d : Disk) (p : Path) : Except Refusal (Place × Option Entry) :=
  if takesOver 4095 p.written then .error .nameTooLong
  else d.walk (if p.isAbsolute then [] else d.here) p.names

end Disk

end Scaffold
