import Scaffold.Project.Discovery
import Scaffold.Project.Work
import Scaffold.Settings.Validation
import Scaffold.Yaml.Reader

/-!
# The configuration of a project

A project may have a configuration document, `codegen.yml`.  `loadSettings` reads the settings in
it; without a document the standard settings hold.  The directory of the document is the root of the
project (`projectRoot`).
-/

namespace Scaffold

/-- The name of a configuration document. -/
def configurationName : Text := "codegen.yml"

/-- Why a configuration cannot be used. -/
inductive ConfigurationError where
  /-- The document does not exist. -/
  | missing (path : Path)
  /-- The disk refuses to read the document. -/
  | unreadable (path : Path) (reason : FileError)
  /-- The document is not well formed. -/
  | malformed (path : Path)
  /-- The document is no mapping. -/
  | notMapping (path : Path) (typeName : Text)
  /-- The document does not give settings. -/
  | unsound (complaints : List Complaint)
  /-- The file has no text, or its path cannot be asked for. -/
  | file (reason : FileError)
  /-- A scalar of the document has no value. -/
  | scalar (reason : ScalarError)
  deriving DecidableEq, Repr

namespace ConfigurationError

/-- The configuration itself is at fault, as a user would see it. -/
def isDeclared : ConfigurationError → Bool
  | file _ | scalar _ => false
  | _ => true

/-- The message for an error, without what is wrong in detail. -/
def message : ConfigurationError → Text
  | missing path => "Config file not found: " ++ path.written
  | unreadable path reason => "Cannot read " ++ path.written ++ ": " ++ reason.message
  | malformed path => "Invalid YAML in " ++ path.written
  | notMapping path typeName =>
    "Expected a YAML mapping in " ++ path.written ++ ", got " ++ typeName
  | unsound _ => "Invalid generator configuration"
  | file reason => reason.message
  | scalar reason => reason.message

/-- Details follow the message. -/
def hasDetails : ConfigurationError → Bool
  | malformed _ | unsound _ => true
  | _ => false

end ConfigurationError

/-- Reports from reading the configuration. -/
def configuring (level : LogLevel) (message : Text) : LogRecord :=
  ⟨level, .configuration, message⟩

/-- The settings that a document gives; none if it is empty. -/
def settingsOf (path : Path) (document : Text) : Except ConfigurationError (Option Settings) :=
  match Yaml.read document with
  | .error .malformed => .error (.malformed path)
  | .error (.scalar reason) => .error (.scalar reason)
  | .ok (.scalar .null) => .ok none
  | .ok (.mapping entries) =>
    ((Settings.check (Settings.wanted entries)).mapError .unsound).map some
  | .ok y => .error (.notMapping path y.typeName)

open Work

/-- The text of the document at a path. -/
def readDocument (path : Path) : Work ConfigurationError Text := do
  let there ← mapError .file (ask (·.isFile path))
  if !there then fail (.missing path)
  else
    report (configuring .debug ("Loading generator config from " ++ path.written))
    mapError (fun e => if e.isRefusal then .unreadable path e else .file e)
      (ask (·.readLines path))

/-- The settings in the document at a path; the standard ones without a document. -/
def loadSettings : Option Path → Work ConfigurationError Settings
  | none => do
    report (configuring .debug ("No " ++ configurationName ++ " — using defaults"))
    return .standard
  | some path => do
    let document ← readDocument path
    match ← ofExcept (settingsOf path document) with
    | none => return .standard
    | some settings =>
      report (configuring .info ("Loaded generator config from " ++ path.written ++ " (schemas: "
        ++ settings.schemaDirectory ++ ")"))
      return settings

/-- The path in the directory `start`, or in one of those above it, of a configuration document; no
more than twenty directories are looked at. -/
def findConfiguration (d : Disk) (start : Path) : Except FileError (Option Path) :=
  match Path.faultAlong (if start.isAbsolute then [] else d.here) start.names with
  | some e => .error e
  | none => findAbove d configurationName 20 (start.normal d.here)

/-- The root of the project of a configuration document; without one it is the current
directory. -/
def projectRoot (here : Place) : Option Path → Path
  | some path => path.parent.normal here
  | none => ⟨.top, here⟩

end Scaffold
