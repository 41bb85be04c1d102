import Scaffold.Text.Quoted
import Scaffold.Text.Similar

/-!
# Command lines

A command line is a list of words.  A word that begins with a dash is an option or, after a single
dash, several one-letter options; some options take a value, which is the rest of the word or the
next one.  Two dashes alone end the options.  `CommandLine.read` tells options and arguments apart;
a command either takes options between its arguments or leaves everything from the first argument
on.
-/

namespace Scaffold

/-- An option that a command knows. -/
structure OptionSpec where
  /-- Its names, with their dashes. -/
  names : List Text
  /-- It takes a value. -/
  takesValue : Bool := false
  deriving DecidableEq, Repr

/-- The name by which an option goes among those that were given. -/
def OptionSpec.key (o : OptionSpec) : Text := o.names.headD []

/-- What is wrong with a command line. -/
inductive LineError where
  /-- There is no such option; some have similar names. -/
  | unknownOption (name : Text) (similar : List Text)
  /-- An option is given a value that it does not take. -/
  | takesNoValue (name : Text)
  /-- An option lacks its value. -/
  | needsValue (name : Text)
  /-- An argument is missing. -/
  | missingArgument (name : Text)
  /-- There are more arguments than the command takes. -/
  | extraArguments (arguments : List Text)
  /-- The command is missing. -/
  | missingCommand
  /-- There is no such command; some have similar names. -/
  | unknownCommand (name : Text) (similar : List Text)
  deriving DecidableEq, Repr

namespace LineError

/-- The question whether one of these names was meant. -/
def suggestion : List Text → Text
  | [] => []
  | [name] => " Did you mean " ++ name.quoted ++ "?"
  | names =>
    " (Did you mean one of: " ++ Text.join ", " ((names.mergeSort Text.le).map Text.quoted) ++ "?)"

/-- The message for an error. -/
def message : LineError → Text
  | unknownOption name similar => "No such option " ++ name.quoted ++ "." ++ suggestion similar
  | takesNoValue name => "Option " ++ name.quoted ++ " does not take a value."
  | needsValue name => "Option " ++ name.quoted ++ " requires an argument."
  | missingArgument name => "Missing argument '" ++ name ++ "'."
  | extraArguments [argument] => "Got unexpected extra argument (" ++ argument ++ ")"
  | extraArguments arguments =>
    "Got unexpected extra arguments (" ++ Text.join " " arguments ++ ")"
  | missingCommand => "Missing command."
  | unknownCommand name similar => "No such command " ++ name.quoted ++ "." ++ suggestion similar

/-- The message comes after a line on the use of the command. -/
def showsUsage : LineError → Bool
  | takesNoValue _ | needsValue _ => false
  | _ => true

end LineError

/-- What a command line gives. -/
structure CommandLine where
  /-- The options by their keys, with their values, in order. -/
  options : List (Text × Option Text) := []
  /-- The arguments. -/
  arguments : List Text := []
  deriving DecidableEq, Repr

namespace CommandLine

/-- The option is given. -/
def has (l : CommandLine) (key : Text) : Bool := l.options.any (·.1 = key)

/-- The value of an option; of several the last one. -/
def value? (l : CommandLine) (key : Text) : Option Text :=
  (l.options.reverse.find? (·.1 = key)).bind (·.2)

/-- The options of a word, and the option that waits for its value, if one does. -/
structure Word where
  /-- The options that are complete. -/
  options : List (Text × Option Text) := []
  /-- The name and the key of an option whose value is the next word. -/
  waiting : Option (Text × Text) := none

variable (specs : List OptionSpec)

/-- The option of a name. -/
def spec? (name : Text) : Option OptionSpec := specs.find? fun o => o.names.contains name

/-- The name has one dash and one letter. -/
def isShort (name : Text) : Bool := name.length = 2

/-- The names that are not short. -/
def longNames : List Text := (specs.flatMap (·.names)).filter (!isShort ·)

/-- A word with the long name of an option, and the value behind an equals sign. -/
def readLong (name : Text) (value : Option Text) : Option (Except LineError Word) :=
  if isShort name then none
  else
    (spec? specs name).map fun o =>
      match o.takesValue, value with
      | true, some v => .ok { options := [(o.key, some v)] }
      | true, none => .ok { waiting := some (name, o.key) }
      | false, some _ => .error (.takesNoValue name)
      | false, none => .ok { options := [(o.key, none)] }

/-- The letters of a word after a single dash. -/
def readShort : Text → Except LineError Word
  | [] => .ok {}
  | c :: cs =>
    let name : Text := [.scalar '-', c]
    match spec? specs name with
    | none => .error (.unknownOption name [])
    | some o =>
      if o.takesValue then
        if cs = [] then .ok { waiting := some (name, o.key) }
        else .ok { options := [(o.key, some cs)] }
      else do
        let w ← readShort cs
        return { w with options := (o.key, none) :: w.options }

/-- A word that begins with a dash.  A long name is looked for first, also after a single dash. -/
def readWord (word : Text) : Except LineError Word :=
  let (name, value) := match Text.cut? "=" word with
    | some (name, value) => (name, some value)
    | none => (word, none)
  match readLong specs name value with
  | some w => w
  | none =>
    if word.startsWith "--" then
      .error (.unknownOption name (Text.closest name (longNames specs) 3))
    else readShort specs (word.drop 1)

/-- The word is an option: a dash is not all of it. -/
def isOption (word : Text) : Bool := word.startsWith "-" && 1 < word.length

/-- Tells options and arguments apart.  An option may wait for its value; `mixed` tells whether
options may come after an argument. -/
def readFrom (mixed : Bool) : Option (Text × Text) → List Text → Except LineError CommandLine
  | some (name, _), [] => .error (.needsValue name)
  | some (_, key), word :: words => do
    let l ← readFrom mixed none words
    return { l with options := (key, some word) :: l.options }
  | none, [] => .ok {}
  | none, word :: words =>
    if word = Text.ofString "--" then .ok { arguments := words }
    else if isOption word then
      match readWord specs word with
      | .error e => .error e
      | .ok w => do
        let l ← readFrom mixed w.waiting words
        return { l with options := w.options ++ l.options }
    else if mixed then do
      let l ← readFrom mixed none words
      return { l with arguments := word :: l.arguments }
    else .ok { arguments := word :: words }

/-- Reads the command line of a command that takes options between its arguments. -/
def read (words : List Text) : Except LineError CommandLine := readFrom specs true none words

/-- Reads the command line of a command that leaves everything from the first argument on. -/
def readLeading (words : List Text) : Except LineError CommandLine :=
  readFrom specs false none words

end CommandLine

end Scaffold
