import Scaffold.Project.Generation

/-!
# Generating all resources

`generateAll` generates every resource that has a schema file, one child process for each, so that
nothing of one resource can reach another.  `childArguments` is the command line of a child.  A
child that does not end well is a failure of its resource, and the others are done all the same.

How a child is run is left open: it is a piece of work that answers the exit code, or why the child
could not be started, and whatever else is to be kept of the child.
-/

namespace Scaffold

/-- What starts a child: its command line, its current directory, and the tag of its reports. -/
structure Child where
  /-- The command line, beginning with the program. -/
  arguments : List Text
  /-- The current directory. -/
  directory : Path
  /-- The resource, which stands before every message. -/
  tag : Text
  deriving DecidableEq, Repr

/-- How a child ends. -/
inductive ChildEnd where
  /-- It ran and left an exit code. -/
  | exited (code : Int)
  /-- It could not be started. -/
  | notStarted (reason : Text)
  deriving DecidableEq, Repr

/-- A resource that was not generated. -/
structure BatchFailure where
  /-- The name of the resource. -/
  resource : Text
  /-- Why it was not generated. -/
  reason : Text
  deriving DecidableEq, Repr

/-- The message for a resource that was not generated. -/
def BatchFailure.message (f : BatchFailure) : Text :=
  "Failed to generate " ++ f.resource ++ ": " ++ f.reason

/-- What became of all resources. -/
structure BatchReport where
  /-- The names of the resources. -/
  resources : List Text
  /-- Those that were generated. -/
  succeeded : List Text
  /-- Those that were not. -/
  failures : List BatchFailure
  deriving DecidableEq, Repr

/-- The program that runs children, and the module that is given to it. -/
def program : List Text := ["python", "-m", "resourcegen.main"]

/-- The command line of the child for a resource. -/
def childArguments (name : Text) (o : Options) (configuration : Option Path)
    (globals : List Text) : List Text :=
  List.flatten [
    program,
    match configuration with
    | some path => ["--config", path.written]
    | none => [],
    globals,
    ["generate", name],
    if o.force then ["--force"] else [],
    match o.only with
    | some kind => if kind = [] then [] else ["--only", kind]
    | none => [],
    if o.skipWiring then ["--skip-wiring"] else []]

/-- Reports from generating all resources. -/
def batching (level : LogLevel) (message : Text) : LogRecord := ⟨level, .batch, message⟩

/-- Why a child that ended so did not generate its resource. -/
def ChildEnd.reason? : ChildEnd → Option Text
  | exited code => if code = 0 then none else some ("exit code " ++ Text.ofInt code)
  | notStarted reason => some ("could not start generator: " ++ reason)

open Work

variable {ε α : Type}

/-- Runs the child of a resource: what is kept of it, and the failure if it did not end well. -/
def runChild (run : Child → Work ε (ChildEnd × α)) (child : Child) :
    Work ε (α × Option BatchFailure) := do
  report (batching .debug ("Running: " ++ Text.join " " child.arguments))
  let (ending, kept) ← run child
  match ending.reason? with
  | none => return (kept, none)
  | some reason =>
    let failure : BatchFailure := ⟨child.tag, reason⟩
    report (batching .error failure.message)
    return (kept, some failure)

/-- What became of all resources, and what was kept of their children. -/
structure Batch (α : Type) where
  /-- What became of the resources. -/
  report : BatchReport
  /-- The children in the order in which they ran. -/
  children : List (Child × α)

/-- The batch of children that have run. -/
def Batch.ofRuns (resources : List Text) (runs : List (Child × α × Option BatchFailure)) :
    Batch α where
  report :=
    { resources
      succeeded := (runs.filter (·.2.2.isNone)).map (·.1.tag)
      failures := runs.filterMap (·.2.2) }
  children := runs.map fun (child, kept, _) => (child, kept)

/-- Generates every resource of a project that has a schema file. -/
def generateAll (run : Child → Work Failure (ChildEnd × α)) (root : Path) (s : Settings)
    (o : Options) (configuration : Option Path) (globals : List Text) :
    Work Failure (Batch α) := do
  let files ← mapError .search (ask (discover · root s))
  let resources := files.map s.resourceName
  if resources.isEmpty then
    report (batching .info ("No resource schemas found under "
      ++ (root.join (.read s.schemaDirectory)).written))
    return .ofRuns [] []
  else
    let children := resources.map fun name =>
      (⟨childArguments name o configuration globals, root, name⟩ : Child)
    let ends ← each (runChild run) children
    let batch := Batch.ofRuns resources (children.zip ends)
    report (batching .info ("Batch finished: " ++ Text.ofNat batch.report.succeeded.length
      ++ " succeeded, " ++ Text.ofNat batch.report.failures.length ++ " failed"))
    return batch

end Scaffold
