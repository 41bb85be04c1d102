import Scaffold.Command.Line
import Scaffold.Log.Sink
import Scaffold.Project.Generation

/-!
# What is asked for

The command line begins with the options of the program itself (`Globals`), then names a command,
and goes on with what the command is asked to do (`Request`).
-/

namespace Scaffold

/-- The name of the program. -/
def programName : Text := "resourcegen"

/-- The version of the program. -/
def programVersion : Text := "0.1.0"

/-- The commands. -/
inductive CommandName where
  /-- Generates one resource. -/
  | generate
  /-- Generates all resources. -/
  | generateAll
  /-- Shows what a schema declares. -/
  | inspect
  /-- Lists the schemas. -/
  | list
  deriving DecidableEq, Repr

namespace CommandName

/-- All commands. -/
def all : List CommandName := [generate, generateAll, inspect, list]

/-- The word for a command. -/
def word : CommandName → Text
  | generate => "generate"
  | generateAll => "generate-all"
  | inspect => "inspect"
  | list => "list"

/-- The command of a word. -/
def ofWord? (t : Text) : Option CommandName := all.find? (·.word = t)

/-- The arguments of a command in the line on its use. -/
def argumentHint : CommandName → Text
  | generate => " [NAME]"
  | inspect => " NAME"
  | _ => []

end CommandName

/-- Which command a message is about: one of them, or the program itself. -/
abbrev Scope := Option CommandName

/-- The words that call a command. -/
def Scope.path : Scope → Text
  | none => programName
  | some c => programName ++ " " ++ c.word

/-- The line on the use of a command. -/
def Scope.usage : Scope → Text
  | none => "Usage: " ++ programName ++ " [OPTIONS] COMMAND [ARGS]..."
  | some c => "Usage: " ++ Scope.path (some c) ++ " [OPTIONS]" ++ c.argumentHint

/-- What is said about a faulty command line. -/
def LineError.report (scope : Scope) (e : LineError) : List Text :=
  let usage : List Text :=
    if e.showsUsage then [scope.usage, "Try '" ++ scope.path ++ " --help' for help.", []] else []
  usage ++ ["Error: " ++ e.message]

/-! ### Options -/

/-- The option that asks for help. -/
def helpOption : OptionSpec := ⟨["--help"], false⟩

/-- The option that asks for the version. -/
def versionOption : OptionSpec := ⟨["--version"], false⟩

/-- The option that asks for the steps of the work. -/
def verboseOption : OptionSpec := ⟨["--verbose", "-v"], false⟩

/-- The option that asks for errors only. -/
def quietOption : OptionSpec := ⟨["--quiet", "-q"], false⟩

/-- The option that asks for every detail. -/
def debugOption : OptionSpec := ⟨["--debug"], false⟩

/-- The option that names the configuration document. -/
def configOption : OptionSpec := ⟨["--config", "-c"], true⟩

/-- The option to overwrite files. -/
def forceOption : OptionSpec := ⟨["--force"], false⟩

/-- The option for one kind of file. -/
def onlyOption : OptionSpec := ⟨["--only"], true⟩

/-- The option to leave the hubs alone. -/
def skipWiringOption : OptionSpec := ⟨["--skip-wiring"], false⟩

/-- The option for machine-readable answers. -/
def jsonOption : OptionSpec := ⟨["--json-output", "--json"], false⟩

/-- The options of the program itself. -/
def globalOptions : List OptionSpec :=
  [versionOption, verboseOption, quietOption, debugOption, configOption, helpOption]

/-- The options of a command. -/
def CommandName.options : CommandName → List OptionSpec
  | generate => [forceOption, onlyOption, skipWiringOption, jsonOption, helpOption]
  | generateAll => [forceOption, onlyOption, skipWiringOption, helpOption]
  | inspect | list => [jsonOption, helpOption]

namespace CommandLine

variable (l : CommandLine)

/-- What a run is asked to do. -/
def runOptions : Options where
  force := l.has forceOption.key
  only := l.value? onlyOption.key
  skipWiring := l.has skipWiringOption.key

/-- How much the user asks to be told. -/
def verbosity : Logging.Verbosity where
  debug := l.has debugOption.key
  verbose := l.has verboseOption.key
  quiet := l.has quietOption.key

end CommandLine

/-- The option that hands the wish of the user to a child. -/
def Logging.Verbosity.arguments (v : Logging.Verbosity) : List Text :=
  if v.debug then ["--debug"]
  else if v.verbose then ["--verbose"]
  else if v.quiet then ["--quiet"]
  else []

/-! ### Requests -/

/-- What a command is asked to do. -/
inductive Request where
  /-- To generate a resource. -/
  | generate (name : Option Text) (options : Options) (json : Bool)
  /-- To generate all resources. -/
  | generateAll (options : Options)
  /-- To show what a schema declares. -/
  | inspect (name : Text) (json : Bool)
  /-- To list the schemas. -/
  | list (json : Bool)
  /-- To show help. -/
  | help
  deriving DecidableEq, Repr

/-- Refuses more arguments than a command takes. -/
def noMore {α : Type} (arguments : List Text) (x : α) : Except LineError α :=
  if arguments = [] then .ok x else .error (.extraArguments arguments)

/-- The request that a command line makes to a command. -/
def CommandName.request (c : CommandName) (words : List Text) : Except LineError Request := do
  let l ← CommandLine.read c.options words
  let json := l.has jsonOption.key
  if l.has helpOption.key then return .help
  else
    match c, l.arguments with
    | generate, [] => return .generate none l.runOptions json
    | generate, name :: rest => noMore rest (.generate (some name) l.runOptions json)
    | generateAll, rest => noMore rest (.generateAll l.runOptions)
    | inspect, [] => throw (.missingArgument "NAME")
    | inspect, name :: rest => noMore rest (.inspect name json)
    | list, rest => noMore rest (.list json)

/-- What the options of the program itself say. -/
structure Globals where
  /-- How much the user asks to be told. -/
  verbosity : Logging.Verbosity
  /-- The configuration document. -/
  configuration : Option Text
  deriving DecidableEq, Repr

/-- What a whole command line asks for. -/
inductive Invocation where
  /-- A command, whose own words are still to be read. -/
  | command (globals : Globals) (name : CommandName) (words : List Text)
  /-- The version of the program. -/
  | version
  /-- Help. -/
  | help
  /-- Nothing: there are no words. -/
  | nothing
  /-- Nothing: the path of the configuration document is none. -/
  | noPath (reason : FileError)
  deriving DecidableEq, Repr

namespace Invocation

/-- What the options in front of the command come to: an invocation that no command takes part in,
or the options and the words from the command on. -/
def opening (words : List Text) : Except LineError (Invocation ⊕ Globals × List Text) := do
  let l ← CommandLine.readLeading globalOptions words
  let configuration := l.value? configOption.key
  let asked := l.options.find? fun (key, _) => key = versionOption.key || key = helpOption.key
  match asked, configuration.bind Path.faultOf with
  | some (key, _), _ => return .inl (if key = versionOption.key then .version else .help)
  | none, some reason => return .inl (.noPath reason)
  | none, none => return .inr (⟨l.verbosity, configuration⟩, l.arguments)

/-- The answer to a word that calls no command. -/
def unknown (word : Text) : LineError :=
  .unknownCommand word (Text.closest word (CommandName.all.map CommandName.word) 3)

/-- The command that the words after the options call.  Where a word that calls none looks like an
option, what it and the words after it say as options comes first. -/
def call (globals : Globals) : List Text → Except LineError Invocation
  | [] => .error .missingCommand
  | word :: words =>
    match CommandName.ofWord? word with
    | some c => .ok (.command globals c words)
    | none =>
      if (word.take 1).all CodePoint.isAlphanumeric then .error (unknown word)
      else
        match opening (word :: words) with
        | .error e => .error e
        | .ok (.inl invocation) => .ok invocation
        | .ok (.inr _) => .error (unknown word)

/-- Reads a command line up to the name of the command. -/
def read (words : List Text) : Except LineError Invocation :=
  if words = [] then .ok .nothing
  else
    match opening words with
    | .error e => .error e
    | .ok (.inl invocation) => .ok invocation
    | .ok (.inr (globals, rest)) => call globals rest

end Invocation

end Scaffold
