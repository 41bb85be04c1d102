import Scaffold.Log.Record
import Scaffold.Log.Tag
import Scaffold.Text.Quoted
import Scaffold.Text.UpperCase

/-!
# Where log records go

Records go to the console and, if one is named, to a log file.  Each of the two takes the records
from a level on (`Logging.consoleThreshold`, `Logging.fileThreshold`).  A tag stands before every
message, so that the records of several runs can be told apart.

The console shows no more than the message from warnings up; it adds the time and the component
where steps of the work are shown, and the level where details are.  A log file has all of it, with
the day and the process.  Records are pure data without a clock: times are given as the beginning of
the day and of time itself, and the process and the line of the program as the first.
-/

namespace Scaffold

/-- A record of any component and level, those of other programs included. -/
structure LogLine where
  /-- The number of the level. -/
  level : Nat
  /-- The name of the component. -/
  source : Text
  /-- What is reported. -/
  message : Text
  deriving DecidableEq, Repr

/-- A record as a line. -/
def LogRecord.line (r : LogRecord) : LogLine := ⟨r.level.number, r.component.name, r.message⟩

namespace Logging

/-- The names of levels with their numbers; a number goes by the first of its names. -/
def levels : List (Text × Nat) :=
  [("NOTSET", 0), ("DEBUG", 10), ("INFO", 20), ("WARNING", 30), ("WARN", 30), ("ERROR", 40),
    ("CRITICAL", 50), ("FATAL", 50)]

/-- The number of a level that is named in any case. -/
def number? (name : Text) : Option Nat := levels.lookup name.toUpper

/-- The level that a name asks for; a name that is none asks for warnings. -/
def threshold (name : Text) : Nat := (number? name).getD 30

/-- The name of a level. -/
def levelName (number : Nat) : Text :=
  match levels.find? (·.2 = number) with
  | some (name, _) => name
  | none => "Level " ++ Text.ofNat number

/-- How much a user asks to be told. -/
structure Verbosity where
  /-- Every detail. -/
  debug : Bool := false
  /-- The steps of the work. -/
  verbose : Bool := false
  /-- Errors only. -/
  quiet : Bool := false
  deriving DecidableEq, Repr

/-- The level that a user asks for: the flag that asks for most wins, then the level of the
environment. -/
def Verbosity.level (v : Verbosity) (environment : Option Text) : Text :=
  if v.debug then "DEBUG"
  else if v.verbose then "INFO"
  else if v.quiet then "ERROR"
  else (environment.filter (· ≠ [])).getD "WARNING"

end Logging

open Logging

/-- What is done with log records. -/
structure Logging where
  /-- The level of the console. -/
  level : Text := "WARNING"
  /-- Records also go to a file. -/
  hasFile : Bool := false
  /-- The level of the file; the one of the console, if it is not given. -/
  fileLevel : Option Text := none
  /-- What stands before every message. -/
  tag : Option Text := none
  deriving DecidableEq, Repr

namespace Logging

variable (l : Logging)

/-- The console takes records from this level on. -/
def consoleThreshold : Nat := threshold l.level

/-- The log file takes records from this level on. -/
def fileThreshold : Nat :=
  match l.fileLevel.filter (· ≠ []) with
  | some name => threshold name
  | none => l.consoleThreshold

/-- Records below this level go nowhere. -/
def rootThreshold : Nat :=
  if l.hasFile then min l.consoleThreshold l.fileThreshold else l.consoleThreshold

/-- The message with the tag before it. -/
def tagged (message : Text) : Text :=
  match l.tag.filter (· ≠ []) with
  | some tag => "[" ++ Tag.shown tag ++ "] " ++ message
  | none => message

/-- The time of day of a record. -/
def clock : Text := "00:00:00"

/-- The day of a record. -/
def day : Text := "1970-01-01"

/-- The level, component and message of a record in full. -/
def full (r : LogLine) : Text :=
  (levelName r.level).padRight 5 ++ " " ++ r.source ++ ":1 " ++ l.tagged r.message

/-- A record as the console shows it. -/
def consoleText (r : LogLine) : Text :=
  if l.consoleThreshold ≤ 10 then clock ++ " " ++ l.full r
  else if l.consoleThreshold ≤ 20 then clock ++ " [" ++ r.source ++ "] " ++ l.tagged r.message
  else l.tagged r.message

/-- A record as the log file has it. -/
def fileText (r : LogLine) : Text := day ++ " " ++ clock ++ " 1 " ++ l.full r

/-- The records that pass the level of a sink; those without a level pass none. -/
def passing (least : Nat) (rs : List LogLine) : List LogLine :=
  rs.filter fun r => 0 < r.level && max least l.rootThreshold ≤ r.level

/-- What the console shows of records; a surrogate is shown as its number. -/
def console (rs : List LogLine) : Text :=
  (Text.unlines ((l.passing l.consoleThreshold rs).map l.consoleText)).withNumbers

/-- What the log file gets of records. -/
def file (rs : List LogLine) : Text :=
  Text.unlines ((l.passing l.fileThreshold rs).map l.fileText)

end Logging

end Scaffold
