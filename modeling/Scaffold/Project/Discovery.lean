import Scaffold.Project.Files
import Scaffold.Settings.Basic
import Scaffold.Text.Wildcard

/-!
# Finding files

`discover` finds the schema files of a project: the files in the directory of the schemas whose
names are anything followed by the suffix, without the base schema, in the order of their paths.
The suffix is part of a pattern: it may have wildcards, and slashes lead it into directories below
(`select`).  Two stars alone stand for any number of directories.

`findAbove` looks for a file in a directory and in those above it.
-/

namespace Scaffold

/-- Why a search ends early. -/
inductive SearchError where
  /-- The disk refuses a path. -/
  | file (e : FileError)
  /-- Two stars are part of a longer name. -/
  | badPattern
  deriving DecidableEq, Repr

/-- The message for a failed search. -/
def SearchError.message : SearchError → Text
  | file e => e.message
  | badPattern => "Invalid pattern: '**' can only be an entire path component"

namespace Discovery

/-- The pattern of any number of directories. -/
def anyDepth : Text := "**"

/-- The names of a pattern; an empty one at the end asks for directories. -/
def patternNames (pattern : Text) : List Text :=
  Path.namesOf pattern ++ if pattern.endsWith "/" then [[]] else []

/-- What a path has below it: the names of the directory that it leads to. -/
def entriesAt (d : Disk) (p : Path) : List (Text × Entry) :=
  match d.locate p with
  | .ok (place, some .directory) => d.children place
  | _ => []

/-- The directory that a path leads to and all directories below it. -/
def directoriesBelow (d : Disk) (p : Path) : List Path :=
  match d.locate p with
  | .ok (place, some .directory) =>
    p :: d.entries.filterMap fun (q, e) =>
      if e = .directory ∧ place.isPrefixOf q ∧ q ≠ place then
        some { p with names := p.names ++ q.drop place.length }
      else none
  | _ => []

/-- A path that goes on with a name. -/
def child (p : Path) (name : Text) : Path := { p with names := p.names ++ [name] }

/-- What a pattern stands for below a path. -/
def select (d : Disk) : (pattern : List Text) → Path → Except SearchError (List Path)
  | [], p => .ok [p]
  | name :: pattern, p =>
    if name = [] then .ok [p]
    else if name = anyDepth then do
      let found ← (directoriesBelow d p).mapM (select d pattern)
      return found.flatten.eraseDups
    else if Wildcard.isPattern name then do
      let fitting := (entriesAt d p).filter fun (n, e) =>
        (pattern = [] || e = .directory) && Wildcard.fits (Wildcard.read name) n
      let found ← fitting.mapM fun (n, _) => select d pattern (child p n)
      return found.flatten
    else
      let next := child p name
      match (if pattern = [] then d.isThere next else d.isDirectory next) with
      | .error e => .error (.file e)
      | .ok false => .ok []
      | .ok true => select d pattern next

/-- The paths that are files. -/
def files (d : Disk) : List Path → Except FileError (List Path)
  | [] => .ok []
  | p :: ps => do
    let isFile ← d.isFile p
    let rest ← files d ps
    return if isFile then p :: rest else rest

end Discovery

open Discovery

/-- The schema files of a project, in the order of their paths. -/
def discover (d : Disk) (root : Path) (s : Settings) : Except SearchError (List Path) := do
  let directory := root.join (.read s.schemaDirectory)
  if ← (d.isDirectory directory).mapError .file then
    let names := patternNames ("*" ++ s.schemaSuffix)
    if names.any fun name => name ≠ anyDepth && name.includes anyDepth then throw .badPattern
    let found ← (files d (← select d names directory)).mapError .file
    return (found.filter fun p => p.name ≠ s.baseSchema).mergeSort Path.le
  else return []

/-- The first path with the name in a directory or in one of those above it, where a file is; no
more than `limit` directories are looked at. -/
def findAbove (d : Disk) (name : Text) : (limit : Nat) → Path → Except FileError (Option Path)
  | 0, _ => .ok none
  | limit + 1, directory => do
    let candidate := child directory name
    if ← d.isFile candidate then return some candidate
    else if directory.names = [] then return none
    else findAbove d name limit directory.parent

end Scaffold
