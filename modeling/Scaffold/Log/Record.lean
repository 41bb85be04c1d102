import Scaffold.Text.Basic

/-!
# Log records

What the library reports while it works: a level, the component that reports, and the text.  A
computation that reports returns its records beside its result, in the order in which they arise.
-/

namespace Scaffold

/-- How important a record is. -/
inductive LogLevel where
  /-- A detail of the work. -/
  | debug
  /-- A step of the work. -/
  | info
  /-- Something that the user should look at. -/
  | warning
  /-- Something that failed. -/
  | error
  deriving DecidableEq, Repr

/-- The name of a level. -/
def LogLevel.name : LogLevel → Text
  | debug => "DEBUG"
  | info => "INFO"
  | warning => "WARNING"
  | error => "ERROR"

/-- The number of a level, larger for what is more important. -/
def LogLevel.number : LogLevel → Nat
  | debug => 10
  | info => 20
  | warning => 30
  | error => 40

/-- The parts of the library that report. -/
inductive Component where
  /-- Reading schema files. -/
  | extractor
  /-- Planning and producing artifacts. -/
  | orchestrator
  /-- Writing generated files. -/
  | writer
  /-- Registering a resource in the hub files. -/
  | wiring
  /-- Generating one resource. -/
  | generation
  /-- Generating all resources. -/
  | batch
  /-- Reading the configuration. -/
  | configuration
  deriving DecidableEq, Repr

/-- The name under which a component reports. -/
def Component.name : Component → Text
  | extractor => "resourcegen.core.services.extractor"
  | orchestrator => "resourcegen.core.services.orchestrator"
  | writer => "resourcegen.core.services.file_writer"
  | wiring => "resourcegen.core.services.wiring.merge"
  | generation => "resourcegen.core.use_cases.generate"
  | batch => "resourcegen.core.use_cases.generate_all"
  | configuration => "resourcegen.core.config.loader"

/-- One report. -/
structure LogRecord where
  /-- How important it is. -/
  level : LogLevel
  /-- Who reports. -/
  component : Component
  /-- What is reported. -/
  message : Text
  deriving DecidableEq, Repr

/-- Records in the order in which they arose. -/
abbrev Log := List LogRecord

end Scaffold
