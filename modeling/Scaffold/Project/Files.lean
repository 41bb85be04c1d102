import Scaffold.Project.Disk

/-!
# Reading and writing files

The operations on a disk.  Each may be refused (`FileError`); an operation that changes the disk
answers the changed disk whether it is refused or not, because what it did up to then stays done: a
file that is opened for writing is emptied before its text is found to have no bytes.

* `Disk.look` only looks; a path that leads nowhere is an answer, not an error.
* `Disk.readText` reads a text as it is, `Disk.readLines` with every line ended by a line feed.
* `Disk.writeText` replaces a file, `Disk.makeDirectories` makes a directory and those above it.
-/

namespace Scaffold

/-- Why a file operation fails. -/
inductive FileError where
  /-- The disk refuses a path. -/
  | refused (reason : Refusal) (path : Path)
  /-- A path with a zero byte in it. -/
  | zeroByte
  /-- A path or a text that has no bytes. -/
  | unencodable (fault : Utf8.EncodeError)
  /-- A file whose bytes are no text. -/
  | undecodable (fault : Utf8.DecodeError)
  deriving DecidableEq, Repr

/-- The message for a failure. -/
def FileError.message : FileError → Text
  | refused reason path =>
    "[Errno " ++ Text.ofNat reason.number ++ "] " ++ reason.message ++ ": " ++ path.written.quoted
  | zeroByte => "embedded null byte"
  | unencodable fault => fault.message
  | undecodable fault => fault.message

/-- The disk itself refuses, as opposed to the form of a path or a text. -/
def FileError.isRefusal : FileError → Bool
  | refused _ _ => true
  | _ => false

/-- A surrogate that stands for a byte in a file name. -/
def CodePoint.isByte : CodePoint → Bool
  | .scalar _ => false
  | .surrogate u => 0x480 ≤ u.val && u.val < 0x500

/-- The first code points of a written path that have no bytes; `pos` is the offset of its rest. -/
def Path.faultFrom (pos : Nat) : Text → Option Utf8.EncodeError
  | [] => none
  | .scalar _ :: t => faultFrom (pos + 1) t
  | .surrogate u :: t =>
    if (CodePoint.surrogate u).isByte then faultFrom (pos + 1) t
    else some ⟨u, pos, 1 + (t.takeWhile fun c => !decide c.IsScalar).length⟩

/-- What is wrong with a written path before any disk is asked. -/
def Path.faultOf (t : Text) : Option FileError :=
  match faultFrom 0 t with
  | some e => some (.unencodable e)
  | none => if t.contains (CodePoint.scalar '\x00') then some .zeroByte else none

/-- What is wrong with a path before any disk is asked. -/
def Path.fault? (p : Path) : Option FileError := faultOf p.written

/-- The first fault of the paths on the way along some names, behind those in `done`. -/
def Path.faultAlong (done : List Text) : List Text → Option FileError
  | [] => none
  | name :: names =>
    if name = Text.ofString ".." then faultAlong done.dropLast names
    else
      match fault? ⟨.top, done ++ [name]⟩ with
      | some e => some e
      | none => faultAlong (done ++ [name]) names

namespace Disk

/-- The place of a path and what stands there. -/
def reach (d : Disk) (p : Path) : Except FileError (Place × Option Entry) :=
  match p.fault? with
  | some e => .error e
  | none => (d.locate p).mapError (.refused · p)

/-- What stands at a path, if anything; only one that is too long is an error. -/
def look (d : Disk) (p : Path) : Except FileError (Option Entry) :=
  match d.reach p with
  | .ok (_, e) => .ok e
  | .error (.refused .nameTooLong q) => .error (.refused .nameTooLong q)
  | .error _ => .ok none

/-- A file stands at the path. -/
def isFile (d : Disk) (p : Path) : Except FileError Bool :=
  (d.look p).map fun e => e matches some (.file _)

/-- A directory stands at the path. -/
def isDirectory (d : Disk) (p : Path) : Except FileError Bool :=
  (d.look p).map fun e => e matches some .directory

/-- Anything stands at the path. -/
def isThere (d : Disk) (p : Path) : Except FileError Bool := (d.look p).map Option.isSome

/-! ### Reading -/

/-- The bytes of the file at a path. -/
def readBytes (d : Disk) (p : Path) : Except FileError Bytes := do
  match (← d.reach p).2 with
  | none => throw (.refused .notFound p)
  | some .directory => throw (.refused .isDirectory p)
  | some (.file b) => return b

/-- The text of the file at a path, as it is. -/
def readText (d : Disk) (p : Path) : Except FileError Text := do
  (Utf8.decode (← d.readBytes p)).mapError .undecodable

/-- The text of the file at a path, every line ended by a line feed. -/
def readLines (d : Disk) (p : Path) : Except FileError Text := do
  return (← d.readText p).normalizeNewlines

/-! ### Writing -/

/-- Writes a text over the file at a path, or into a new file. -/
def writeText (d : Disk) (p : Path) (t : Text) : Except FileError Unit × Disk :=
  match d.reach p with
  | .error e => (.error e, d)
  | .ok (_, some .directory) => (.error (.refused .isDirectory p), d)
  | .ok (place, _) =>
    match Utf8.encode t with
    | .ok b => (.ok (), d.put place (.file b))
    | .error e => (.error (.unencodable e), d.put place (.file []))

/-- Makes a directory at a path whose directory is there. -/
def makeDirectory (d : Disk) (p : Path) : Except FileError Disk :=
  match d.reach p with
  | .error e => .error e
  | .ok (_, some _) => .error (.refused .taken p)
  | .ok (place, none) => .ok (d.put place .directory)

/-- A refusal to make a directory that is there already is none. -/
def unlessDirectory (d : Disk) (p : Path) (e : FileError) : Except FileError Unit :=
  if e.isRefusal then
    match d.isDirectory p with
    | .error e' => .error e'
    | .ok true => .ok ()
    | .ok false => .error e
  else .error e

/-- Makes the directory with names `names`, and before it every directory above it that is
missing.  `names` is in reverse. -/
def makeDirectoriesAt (start : PathStart) (d : Disk) :
    (names : List Text) → Except FileError Unit × Disk
  | [] =>
    let p : Path := ⟨start, []⟩
    match d.makeDirectory p with
    | .ok d' => (.ok (), d')
    | .error e => (d.unlessDirectory p e, d)
  | name :: names =>
    let p : Path := ⟨start, (name :: names).reverse⟩
    match d.makeDirectory p with
    | .ok d' => (.ok (), d')
    | .error (.refused .notFound _) =>
      match makeDirectoriesAt start d names with
      | (.error e, d') => (.error e, d')
      | (.ok (), d') =>
        match d'.makeDirectory p with
        | .ok d'' => (.ok (), d'')
        | .error e => (if e = .refused .notFound p then .error e else d'.unlessDirectory p e, d')
    | .error e => (d.unlessDirectory p e, d)

/-- Makes the directory at a path, and before it every directory above it that is missing. -/
def makeDirectories (d : Disk) (p : Path) : Except FileError Unit × Disk :=
  makeDirectoriesAt p.start d p.names.reverse

/-- Writes a text to a file, making the directories above it. -/
def save (d : Disk) (p : Path) (t : Text) : Except FileError Unit × Disk :=
  match d.makeDirectories p.parent with
  | (.error e, d') => (.error e, d')
  | (.ok (), d') => d'.writeText p t

end Disk

end Scaffold
