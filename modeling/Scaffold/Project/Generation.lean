import Scaffold.Project.Configuration
import Scaffold.Project.Wiring
import Scaffold.Project.Writing
import Scaffold.Schema.Extract

/-!
# Generating a resource

`generate` reads the schema of a resource, writes its files, and then registers it in the hubs.  A
schema that is missing or declares no usable resource is part of the result; everything else that
goes wrong and that no outcome stands for ends the work (`Failure`).
-/

namespace Scaffold

/-- What a run is asked to do. -/
structure Options where
  /-- Files that are there are overwritten. -/
  force : Bool := false
  /-- Only files of this kind are made. -/
  only : Option Text := none
  /-- The hubs are left alone. -/
  skipWiring : Bool := false
  deriving DecidableEq, Repr

/-- Why a schema file gives no resource. -/
inductive SchemaError where
  /-- There is no such file. -/
  | missing (path : Path)
  /-- The disk refuses to read the file. -/
  | unreadable (path : Path) (reason : FileError)
  /-- The file has no text, or its path cannot be asked for. -/
  | file (reason : FileError)
  /-- The text declares no usable resource. -/
  | invalid (path : Path) (factory : Text) (reason : ExtractError)

namespace SchemaError

/-- The schema itself is at fault, as a user would see it. -/
def isDeclared : SchemaError → Bool
  | missing _ | unreadable _ _ => true
  | file _ => false
  | invalid _ _ reason => reason.isDeclared

/-- The message for an error. -/
def message : SchemaError → Text
  | missing path => "Schema not found: " ++ path.written
  | unreadable path reason => "Cannot read " ++ path.written ++ ": " ++ reason.message
  | file reason => reason.message
  | invalid path factory reason => reason.message path.written factory

end SchemaError

/-- Why a run ends before its end. -/
inductive Failure where
  /-- Reading a schema. -/
  | schema (e : SchemaError)
  /-- Planning the files. -/
  | template (e : TemplateError)
  /-- Reading or writing a file. -/
  | file (e : FileError)
  /-- Finding the schema files. -/
  | search (e : SearchError)
  /-- Reading the configuration. -/
  | configuration (e : ConfigurationError)
  /-- Printing an answer with a number that is too large. -/
  | oversized
  /-- Printing an answer, or a key in it, that has no bytes. -/
  | unprintable (e : Utf8.EncodeError)

/-- The message for a failure. -/
def Failure.message : Failure → Text
  | schema e => e.message
  | template e => e.message
  | file e => e.message
  | search e => e.message
  | configuration e => e.message
  | oversized => oversizedMessage
  | unprintable e => e.message

/-- What a run did for a resource. -/
structure Generated where
  /-- The name that was asked for. -/
  name : Text
  /-- The resource that the schema declares. -/
  resource : Resource
  /-- What became of its files. -/
  writes : List WriteOutcome
  /-- What became of the hubs; none of them if they were left alone. -/
  wiring : Option (List HubOutcome)

namespace Generated

variable (g : Generated)

/-- How many files were written. -/
def written : Nat := g.writes.countP (·.status = .written)

/-- How many files were there already. -/
def skipped : Nat := g.writes.countP (·.status = .skipped)

/-- How many files and hubs failed. -/
def failed : Nat :=
  g.writes.countP (·.status matches .failed _)
    + (g.wiring.getD []).countP (·.status matches .failed _)

end Generated

/-- Reports from generating a resource. -/
def generating (level : LogLevel) (message : Text) : LogRecord := ⟨level, .generation, message⟩

open Work

/-- The resource that the schema file at a path declares. -/
def extractFile (factory : Text) (path : Path) : Work SchemaError Resource := do
  let there ← mapError .file (ask (·.isFile path))
  if !there then fail (.missing path)
  else
    let source ← mapError (fun e => if e.isRefusal then .unreadable path e else .file e)
      (ask (·.readLines path))
    let (result, log) := extract factory path.written source
    reportAll log
    ofExcept (result.mapError (.invalid path factory))

/-- The report that a schema declares another resource than its file name says. -/
def otherName (s : Settings) (name : Text) (r : Resource) : LogRecord :=
  generating .warning (s.schemaPath name ++ " declares resource '" ++ r.name ++ "', not '" ++ name
    ++ "'; generating '" ++ r.name ++ "'")

/-- The report at the end of a run. -/
def generatedReport (g : Generated) : LogRecord :=
  generating .info ("Generated " ++ g.resource.name ++ ": " ++ Text.ofNat g.written ++ " written, "
    ++ Text.ofNat g.skipped ++ " skipped, " ++ Text.ofNat g.failed ++ " failed")

/-- Registers a resource in the hubs of a project, unless they are left alone. -/
def wire (root : Path) (s : Settings) (skip : Bool) (r : Resource) :
    Work FileError (Option (List HubOutcome)) :=
  if skip then do
    report (generating .info ("Wiring skipped for " ++ r.name))
    return none
  else do
    return some (← merge (Hub.standard s) r root)

/-- Writes the files of a resource and registers it in the hubs. -/
def produce (root : Path) (s : Settings) (catalogue : Catalogue) (o : Options) (name : Text)
    (r : Resource) : Work Failure Generated := do
  if r.name ≠ name then report (otherName s name r)
  let (files, log) := plan catalogue o.only r
  reportAll log
  let files ← ofExcept (files.mapError .template)
  let writes ← mapError .file (execute files r root o.force)
  let wiring ← mapError .file (wire root s o.skipWiring r)
  let g : Generated := ⟨name, r, writes, wiring⟩
  report (generatedReport g)
  return g

/-- Generates the resource of a name: the result, or the fault of its schema. -/
def generate (root : Path) (s : Settings) (catalogue : Catalogue) (o : Options) (name : Text) :
    Work Failure (Except SchemaError Generated) := do
  match ← attempt (extractFile s.factory (root.join (.read (s.schemaPath name)))) with
  | .error e =>
    if e.isDeclared then
      report (generating .error e.message)
      return .error e
    else fail (.schema e)
  | .ok r => return .ok (← produce root s catalogue o name r)

end Scaffold
