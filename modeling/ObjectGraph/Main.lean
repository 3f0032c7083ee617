/-
# The command line

`initialize`, `translate [--target T] FILE` and `ddl`, each with an optional `--context DIR`
for the directory of the configuration.
-/
import ObjectGraph.Command

namespace ObjectGraph

/-- What was asked for on the command line, as far as it is read. -/
structure Arguments where
  context : Option String := none
  target : Target := .sql
  words : List String := []

namespace Arguments

/-- Read arguments in order. -/
def read (arguments : Arguments) : List String → Except String Arguments
  | [] => .ok arguments
  | "--context" :: directory :: rest => { arguments with context := some directory }.read rest
  | "--target" :: name :: rest =>
    match Target.names.lookup name with
    | some target => { arguments with target }.read rest
    | none => .error ("invalid value '" ++ name ++ "' for '--target <TARGET>'")
  | word :: rest => { arguments with words := arguments.words ++ [word] }.read rest

/-- The command that the words stand for. -/
def command (arguments : Arguments) : Except String Command :=
  match arguments.words with
  | ["initialize"] => .ok .setUp
  | ["translate", file] => .ok (.display arguments.target file)
  | ["ddl"] => .ok .tables
  | _ => .error "expected one of: initialize, translate FILE, ddl"

end Arguments

/-- The files a command reads. -/
def Command.inputs (directory : String) : Command → List String
  | .display _ file => [file, Path.join directory configurationFile]
  | _ => [Path.join directory configurationFile]

/-- The environment variable a configuration refers to. -/
def Configuration.variables (configuration : Configuration) : List String :=
  match configuration.connectionUri with
  | .plain _ => []
  | .fromEnvironment name => [name]

namespace Main

/-- Those of the given files that can be read. -/
def load (paths : List String) : IO Files := do
  let mut files := Files.empty
  for path in paths do
    try
      files := files.write path (← IO.FS.readFile path)
    catch _ => pure ()
  return files

/-- The variables that the configuration of a directory refers to. -/
def environmentOf (files : Files) (directory : String) : IO Environment := do
  match Command.readConfiguration files directory with
  | .error _ => return []
  | .ok configuration =>
    let mut environment := []
    for name in configuration.variables do
      match ← IO.getEnv name with
      | some value => environment := (name, value) :: environment
      | none => pure ()
    return environment

/-- Load what the command reads, run it, and write what comes out of it. -/
def carryOut (directory : String) (command : Command) : IO UInt32 := do
  let files ← load (command.inputs directory)
  let environment ← environmentOf files directory
  match command.run files environment directory with
  | .error e =>
    IO.eprintln ("Error: " ++ e.message)
    return 1
  | .ok outcome =>
    if !outcome.written.isEmpty then IO.FS.createDirAll directory
    for (path, text) in outcome.written do
      IO.FS.writeFile path text
    IO.print outcome.output
    return 0

/-- Carry out what the words of the command line ask for. -/
def run (words : List String) : IO UInt32 := do
  match do let arguments ← ({} : Arguments).read words; return (arguments, ← arguments.command) with
  | .error usage =>
    IO.eprintln ("error: " ++ usage)
    return 2
  | .ok (arguments, command) =>
    let standard ← IO.getEnv "OBJQUERY_CONTEXT_PATH"
    carryOut (arguments.context.getD (standard.getD ".")) command

end Main
end ObjectGraph

/-- The program. -/
def main (words : List String) : IO UInt32 := ObjectGraph.Main.run words
