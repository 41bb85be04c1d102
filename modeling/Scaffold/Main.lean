import Scaffold.Command.Program

/-!
# The command

`main` reads the project that the current directory belongs to, runs the program on it, and writes
back what the run changed.  Version control and installed packages are no part of a project.  A log
file is opened before the run and gets the log of every child, and then that of the run itself.
-/

namespace Scaffold

namespace Main

/-- The directories that are no part of a project. -/
def foreign : List String := [".git", "node_modules"]

/-- A text as a string; a surrogate becomes the replacement character. -/
def shown (t : Text) : String :=
  String.ofList (t.map fun c => match c with
    | .scalar c => c
    | .surrogate _ => '\uFFFD')

/-- The written form of a place. -/
def written (place : Place) : String := shown (Path.written ⟨.top, place⟩)

/-- A directory stands at a place; `none` if nothing stands there. -/
def isDirectory? (place : Place) : IO (Option Bool) := do
  match ← (IO.FS.realPath (written place)).toBaseIO with
  | .ok path => return some (← path.isDir)
  | .error _ => return none

/-- What is below a place. -/
partial def readTree (place : Place) : IO (List (Place × Entry)) := do
  if (← isDirectory? place) ≠ some true then return []
  let directory ← IO.FS.realPath (written place)
  let found ← (← directory.readDir).toList.mapM fun e => do
    let there := place ++ [Text.ofString e.fileName]
    if ← e.path.isDir then
      if foreign.contains e.fileName then return []
      return (there, Entry.directory) :: (← readTree there)
    else return [(there, Entry.file (← IO.FS.readBinFile e.path).toList)]
  return found.flatten

/-- The directories on the way to a place, and the place itself. -/
def above (place : Place) : List (Place × Entry) :=
  (List.range place.length).map fun n => (place.take (n + 1), .directory)

/-- The root of the project that a directory belongs to. -/
def rootFor (here : Place) (words : List Text) : IO Place := do
  let named := match Invocation.read words with
    | .ok (.command g _ _) => g.configuration.filter (· ≠ [])
    | _ => none
  match named with
  | some path => return (projectRoot here (some (.read path))).names
  | none =>
    for n in List.range (here.length + 1) do
      let place := here.take (here.length - n)
      if (← isDirectory? (place ++ [configurationName])) = some false then return place
    return here

/-- Writes back what has changed. -/
def writeChanges (before after : Disk) : IO Unit := do
  for (place, e) in after.entries do
    if before.find? place ≠ some e then
      match e with
      | .directory => IO.FS.createDirAll (written place)
      | .file content => IO.FS.writeBinFile (written place) ⟨content.toArray⟩

/-- Adds to the log file that the environment names, if it names one; the file is found from the
directory in which it is opened. -/
def appendLog (e : Environment) (directory : Place) (logged : Text) : IO Unit := do
  if let some file := e.logFile? then
    let path := Path.join ⟨.top, directory⟩ (.read file)
    let handle ← IO.FS.Handle.mk (shown path.written) .append
    handle.putStr (shown logged)

/-- The words call a command. -/
def callsCommand (words : List Text) : Bool :=
  match Invocation.read words with
  | .ok (.command _ _ _) => true
  | _ => false

/-- Prints how a run ended. -/
def printEnding (e : Ending) : IO Unit := do
  (← IO.getStdout).putStr (shown e.output)
  let failure : Text := match e.failure with
    | some f => programName ++ ": " ++ f.message ++ "\n"
    | none => []
  (← IO.getStderr).putStr (shown (e.errors ++ failure))

end Main

end Scaffold

open Scaffold Scaffold.Main in
/-- Runs the program in the current directory. -/
def main (arguments : List String) : IO UInt32 := do
  let words := arguments.map Text.ofString
  let here := (Path.read (Text.ofString (← IO.currentDir).toString)).names
  let environment : Environment :=
    { level := (← IO.getEnv "RGEN_LOG_LEVEL").map Text.ofString
      tag := (← IO.getEnv "RGEN_LOG_TAG").map Text.ofString
      logFile := (← IO.getEnv "RGEN_LOG_FILE").map Text.ofString
      logFileLevel := (← IO.getEnv "RGEN_LOG_FILE_LEVEL").map Text.ofString }
  let logs := callsCommand words
  if logs then appendLog environment here []
  let root ← rootFor here words
  let disk : Disk := ⟨above root ++ (← readTree root), here⟩
  let run := Program.run (Program.runner environment 1) environment words disk
  writeChanges disk run.disk
  match run.result with
  | .error f =>
    printEnding { exitCode := 1, output := [], errors := [], failure := some f }
    return 1
  | .ok (ending, children) =>
    for (child, ended) in children do
      if let some e := ended then
        printEnding e
        appendLog environment child.directory.names e.logged
    printEnding ending
    if logs then appendLog environment here ending.logged
    return .ofNat ending.exitCode
