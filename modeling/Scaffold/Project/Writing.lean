import Scaffold.Artifact.Plan
import Scaffold.Project.Files
import Scaffold.Project.Work

/-!
# Writing generated files

`writeGenerated` writes one file, unless it is there and may not be overwritten.  `execute` makes
and writes the planned files of a resource in order: a file whose text cannot be made, or that the
disk refuses, is a failed one, and the others are written all the same.
-/

namespace Scaffold

/-- What became of a planned file. -/
inductive WriteStatus where
  /-- It was written. -/
  | written
  /-- It was there already. -/
  | skipped
  /-- The resource has no such file. -/
  | omitted
  /-- It could not be written; the reason is given. -/
  | failed (reason : Text)
  deriving DecidableEq, Repr

/-- The name of a status. -/
def WriteStatus.name : WriteStatus → Text
  | written => "written"
  | skipped => "skipped"
  | omitted => "omitted"
  | failed _ => "failed"

/-- The reason why a file could not be written. -/
def WriteStatus.reason? : WriteStatus → Option Text
  | failed reason => some reason
  | _ => none

/-- What became of one planned file. -/
structure WriteOutcome where
  /-- Its place, relative to the project. -/
  path : Text
  /-- Its kind. -/
  kind : Text
  /-- What became of it. -/
  status : WriteStatus
  deriving DecidableEq, Repr

/-- Reports from writing files. -/
def writing (level : LogLevel) (message : Text) : LogRecord := ⟨level, .writer, message⟩

open Work

/-- Writes a generated file, unless it is there and may not be overwritten. -/
def writeGenerated (root : Path) (path kind content : Text) (force : Bool) :
    Work FileError WriteOutcome := do
  let target := root.join (.read path)
  change (·.makeDirectories target.parent)
  let there ← ask (·.isThere target)
  if there && !force then
    report (writing .info ("Skipped existing file: " ++ target.written))
    return ⟨path, kind, .skipped⟩
  else
    change (·.writeText target content)
    report (writing .info ("Wrote generated file: " ++ target.written))
    return ⟨path, kind, .written⟩

/-- Writes the text of a planned file.  A refusal of the disk is an outcome. -/
def writePlanned (root : Path) (file : PlannedFile) (content : Text) (force : Bool) :
    Work FileError WriteOutcome := do
  match ← attempt (writeGenerated root file.destination file.kind content force) with
  | .ok outcome => return outcome
  | .error e =>
    if e.isRefusal then
      report (orchestrating .error
        ("Cannot write " ++ file.destination ++ ": " ++ e.message))
      return ⟨file.destination, file.kind, .failed e.message⟩
    else fail e

/-- Makes and writes a planned file. -/
def executeOne (r : Resource) (root : Path) (force : Bool) (file : PlannedFile) :
    Work FileError WriteOutcome := do
  match file.maker r with
  | .error reason =>
    report (orchestrating .error
      ("Producer for " ++ file.destination ++ " failed: " ++ reason))
    return ⟨file.destination, file.kind, .failed ("producer error: " ++ reason)⟩
  | .ok none =>
    report (orchestrating .debug ("Producer for " ++ file.destination ++ " emitted nothing"))
    return ⟨file.destination, file.kind, .omitted⟩
  | .ok (some content) => writePlanned root file content force

/-- Makes and writes planned files in order. -/
def execute (files : List PlannedFile) (r : Resource) (root : Path) (force : Bool) :
    Work FileError (List WriteOutcome) :=
  each (executeOne r root force) files

end Scaffold
