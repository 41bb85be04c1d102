import Scaffold.Command.Report
import Scaffold.Command.Request
import Scaffold.Text.Colour

/-!
# The program

`Program.run` is one run of the program: it reads the command line, takes the settings from the
configuration, does what is asked for, and ends with an exit code and what it wrote for the user
(`Ending`).  How the children of a batch are run is a parameter; `Program.runner` runs each of them
in turn as the program itself is run.

The log goes to the error output before anything else that is written there, and a surrogate is
written as its number there.  It also goes to a log file if the environment names one; the file is
no part of the disk that the program works on, so what it gets is a part of the ending.  The output
takes bytes only: a message with a surrogate is not printed and ends the run after the messages
before it.  A failure that no answer stands for ends the run with exit code 1.
-/

namespace Scaffold

/-- What the environment tells the program. -/
structure Environment where
  /-- The level of the log. -/
  level : Option Text := none
  /-- What stands before every message of the log. -/
  tag : Option Text := none
  /-- The file that the log goes to as well. -/
  logFile : Option Text := none
  /-- The level of this file. -/
  logFileLevel : Option Text := none
  deriving DecidableEq, Repr

/-- The log file, if one is named. -/
def Environment.logFile? (e : Environment) : Option Text := e.logFile.filter (· ≠ [])

/-- How a run of the program ends. -/
structure Ending where
  /-- The exit code. -/
  exitCode : Nat
  /-- What it wrote to its output. -/
  output : Text
  /-- What it wrote to its error output. -/
  errors : Text
  /-- The failure that ended it early. -/
  failure : Option Failure := none
  /-- What it wrote to its log file. -/
  logged : Text := []

/-- A child of a run with its ending, if it ran as the program does. -/
abbrev ChildRecord := Child × Option Ending

/-- What a command answers. -/
structure Reply where
  /-- The exit code. -/
  exitCode : Nat := 0
  /-- The messages for the output. -/
  output : List Text := []
  /-- The messages for the error output. -/
  errors : List Text := []
  /-- Details follow on the last line of the error output. -/
  hasDetails : Bool := false
  /-- The children that it had. -/
  children : List ChildRecord := []

/-- How a child is run. -/
abbrev Runner := Child → Work Failure (ChildEnd × Option Ending)

/-- What the commands work with. -/
structure Workspace where
  /-- The root of the project. -/
  root : Path
  /-- The settings of the generator. -/
  settings : Settings
  /-- The configuration document. -/
  configuration : Option Path
  /-- How much the user asks to be told. -/
  verbosity : Logging.Verbosity

open Work

namespace Reply

/-- An answer for people, or one for machines if it has a value. -/
def ofReport (exitCode : Nat) (json : Bool) (report : List Text)
    (value : Except Utf8.EncodeError Value) : Work Failure Reply :=
  if !json then return { exitCode, output := report }
  else
    match value with
    | .error e => fail (.unprintable e)
    | .ok value =>
      if value.oversized then fail .oversized else return { exitCode, output := [value.json] }

/-- An answer that the command line is at fault. -/
def ofLineError (scope : Scope) (e : LineError) : Reply :=
  { exitCode := 2, errors := e.report scope }

end Reply

/-! ### Commands -/

namespace Workspace

variable (w : Workspace)

/-- The answer when no resource is named. -/
def nameMissing : Reply :=
  { exitCode := 1
    errors := [Scope.usage (some .generate),
      complaint "Missing resource name, e.g. \x60resourcegen generate order\x60"] }

/-- Generates a resource. -/
def generate (name : Text) (o : Options) (json : Bool) : Work Failure Reply := do
  if name = [] then return nameMissing
  else
    match ← Scaffold.generate w.root w.settings .standard o name with
    | .error e => Reply.ofReport 1 json [complaint e.message] (.ok (e.valueFor name))
    | .ok g => Reply.ofReport 0 json (g.report w.verbosity.quiet o.only) (.ok g.value)

/-- Generates all resources. -/
def generateAll (run : Runner) (o : Options) : Work Failure Reply := do
  let here ← ask fun d => .ok d.here
  let batch ← Scaffold.generateAll run w.root w.settings o
    (w.configuration.map (·.normal here)) w.verbosity.arguments
  return {
    exitCode := if batch.report.isOk then 0 else 1
    output := batch.report.report
    children := batch.children }

/-- Shows what a schema declares. -/
def inspect (name : Text) (json : Bool) : Work Failure Reply := do
  let path := w.root.join (.read (w.settings.schemaPath name))
  match ← attempt (extractFile w.settings.factory path) with
  | .error e =>
    if e.isDeclared then Reply.ofReport 1 json [complaint e.message] (.ok e.value)
    else fail (.schema e)
  | .ok r => Reply.ofReport 0 json r.report r.value

/-- Lists the schemas. -/
def list (json : Bool) : Work Failure Reply := do
  let files ← mapError .search (ask (discover · w.root w.settings))
  let listing : Listing := ⟨w.settings.schemaDirectory, files.map w.settings.resourceName⟩
  Reply.ofReport 0 json listing.report (.ok listing.value)

/-- Does what is asked for. -/
def answer (run : Runner) : Request → Work Failure Reply
  | .generate name o json => w.generate (name.getD []) o json
  | .generateAll o => w.generateAll run o
  | .inspect name json => w.inspect name json
  | .list json => w.list json
  | .help => return { output := [Scope.usage none] }

end Workspace

/-! ### Runs -/

/-- What the commands work with, as the configuration says. -/
def openWorkspace (g : Globals) : Work Failure Workspace := do
  let here ← ask fun d => .ok d.here
  let configuration ←
    match g.configuration.filter (· ≠ []) with
    | some path => pure (some (Path.read path))
    | none => mapError .file (ask fun d => findConfiguration d ⟨.here, []⟩)
  let settings ← mapError .configuration (loadSettings configuration)
  return ⟨projectRoot here configuration, settings, configuration, g.verbosity⟩

/-- The answer when the configuration is at fault. -/
def ConfigurationError.reply (e : ConfigurationError) : Reply :=
  { exitCode := 1, errors := [complaint e.message], hasDetails := e.hasDetails }

/-- Calls a command. -/
def call (run : Runner) (g : Globals) (c : CommandName) (words : List Text) :
    Work Failure Reply := do
  match ← attempt (openWorkspace g) with
  | .error (.configuration e) =>
    if e.isDeclared then return e.reply else fail (.configuration e)
  | .error e => fail e
  | .ok w =>
    match c.request words with
    | .error e => return .ofLineError (some c) e
    | .ok request => w.answer run request

/-- What is done with the log of a command. -/
def Globals.logging (g : Globals) (e : Environment) : Logging :=
  { level := g.verbosity.level e.level
    hasFile := e.logFile?.isSome
    fileLevel := e.logFileLevel
    tag := e.tag }

namespace Program

/-- A message as it is printed. -/
def printed (message : Text) : Text := (message ++ "\n").withoutColours

/-- Prints messages up to the first that has no bytes. -/
def printAll : List Text → Text × Option Failure
  | [] => ([], none)
  | message :: messages =>
    match Utf8.encode (printed message) with
    | .error e => ([], some (.unprintable e))
    | .ok _ =>
      let (rest, failure) := printAll messages
      (printed message ++ rest, failure)

/-- What goes to the error output for messages. -/
def printErrors (messages : List Text) : Text := Text.withNumbers (messages.flatMap printed)

/-- How a run ends with a reply, after the log has gone to the error output. -/
def ending (log : Text) (reply : Reply) : Ending :=
  let errors := printErrors reply.errors
  let errors := log ++ if reply.hasDetails then errors.dropLast else errors
  match printAll reply.output with
  | (output, none) => { exitCode := reply.exitCode, output, errors }
  | (output, some failure) => { exitCode := 1, output, errors, failure := some failure }

/-- The ending of a command, with its log on the error output and in the log file. -/
def finish (l : Logging) (r : Run Failure Reply) : Run Failure (Ending × List ChildRecord) :=
  let lines := r.log.map LogRecord.line
  let log := l.console lines
  let logged := if l.hasFile then l.file lines else []
  match r.result with
  | .ok reply => ⟨.ok ({ ending log reply with logged }, reply.children), r.disk, []⟩
  | .error e =>
    ⟨.ok ({ exitCode := 1, output := [], errors := log, failure := some e, logged }, []), r.disk,
      []⟩

/-- Runs the program with a command line. -/
def run (children : Runner) (e : Environment) (words : List Text) :
    Work Failure (Ending × List ChildRecord) :=
  match Invocation.read words with
  | .error fault => return (ending [] (.ofLineError none fault), [])
  | .ok .nothing => return (ending [] { exitCode := 2, errors := [Scope.usage none] }, [])
  | .ok .help => return (ending [] { output := [Scope.usage none] }, [])
  | .ok .version =>
    return (ending [] { output := [programName ++ ", version " ++ programVersion] }, [])
  | .ok (.noPath reason) =>
    return ({ exitCode := 1, output := [], errors := [], failure := some (.file reason) }, [])
  | .ok (.command g c words) => fun d => finish (g.logging e) (call children g c words d)

/-- Runs a child as the program is run. -/
def runChild (children : Runner) (e : Environment) : Runner := fun child => do
  let ((ending, _) : Ending × List ChildRecord) ←
    inDirectory child.directory.names
      (run children { e with tag := some child.tag } (child.arguments.drop program.length))
  return (.exited ending.exitCode, some ending)

/-- Runs children as the program is run, for as many generations of them as `depth` says. -/
def runner (e : Environment) : (depth : Nat) → Runner
  | 0 => fun _ => return (.notStarted "too many generations", none)
  | depth + 1 => runChild (runner e depth) e

end Program

end Scaffold
