/-
# Commands

What can be asked for on the command line.  Every command works in a directory that holds, or
will hold, a configuration.
-/
import ObjectGraph.Command.Files
import ObjectGraph.Configuration.Schema
import ObjectGraph.Engine
import ObjectGraph.Query.Format
import ObjectGraph.Query.Outline

namespace ObjectGraph

/-- What a query can be shown as. -/
inductive Target
  | sql
  | malloy
  | cypher
  /-- The outline of the query itself. -/
  | dump
deriving DecidableEq, Repr

/-- The targets by name. -/
def Target.names : List (String × Target) :=
  [("sql", sql), ("malloy", malloy), ("cypher", cypher), ("dump", dump)]

/-- What the program can be told to do. -/
inductive Command
  /-- Write a configuration without object types, and its schema. -/
  | setUp
  /-- Show the query of a file. -/
  | display (target : Target) (file : String)
  /-- Show the statements that create the tables of all object types. -/
  | tables
deriving DecidableEq, Repr

/-- Why a command cannot be carried out. -/
inductive CommandError
  | unreadableFile (fault : FileFault)
  | query (e : Json.DecodeError)
  | unreadableConfiguration (path : String) (fault : FileFault)
  | configuration (path : String) (e : Configuration.FormatError)
  | settings (fault : ConfigurationFault)
  | engine (e : EngineError)
  | alreadyInitialized (directory : String)

namespace CommandError

/-- Where in a file a text stops being JSON, if that is what is wrong with it. -/
def placeText : Json.DecodeError → String
  | .malformed e => ":" ++ toString e.position.line ++ ":" ++ toString e.position.column
  | .mismatch _ => ""

/-- What is said of an error, with the place of the fault where there is one. -/
def message : CommandError → String
  | unreadableFile fault => fault.message
  | query e => e.message
  | unreadableConfiguration path fault => "I/O error: " ++ path ++ ": " ++ fault.message
  | configuration path (.unreadable e) =>
    "parse error on " ++ path ++ placeText e ++ ": " ++ e.message
  | configuration _ (.unsupportedVersion version) =>
    "unsupported configuration version " ++ toString version.toNat ++ ", expected "
      ++ toString Configuration.currentVersion.toNat
  | settings fault => fault.message
  | engine e => e.message
  | alreadyInitialized directory => "a configuration already exists in " ++ directory

end CommandError

/-- What a command prints, and the files it writes. -/
structure Outcome where
  output : String
  written : List (String × String) := []

namespace Command

/-- The name of the file that holds the configuration. -/
def configurationFile : String := "configuration.json"

/-- The name of the file that holds the schema of configurations. -/
def schemaFile : String := "schema.json"

/-- Read the configuration in a directory. -/
def readConfiguration (files : Files) (directory : String) :
    Except CommandError Configuration := do
  let path := Path.join directory configurationFile
  let text ← (files.read path).mapError (.unreadableConfiguration path)
  (Configuration.parse text).mapError (.configuration path)

/-- The files that hold a configuration. -/
def configurationFiles (configuration : Configuration) (directory : String) :
    List (String × String) :=
  [(Path.join directory configurationFile, configuration.text),
   (Path.join directory schemaFile, Configuration.Schema.text)]

/-- The engine for the configuration in a directory. -/
def openEngine (files : Files) (environment : Environment) (directory : String) :
    Except CommandError Engine := do
  let configuration ← readConfiguration files directory
  return ⟨← (configuration.resolve environment).mapError .settings⟩

/-- A text with a line break behind it. -/
def line (text : String) : String := text ++ "\n"

/-- A statement, and its parameters in comments. -/
def statementText (statement : Sql.Statement) : String :=
  line statement.text
    ++ String.join (statement.parameters.zipIdx.map fun (value, i) =>
      line ("-- $" ++ toString (i + 1) ++ " = " ++ Text.reveal value))

/-- A query as a target has it. -/
def targetText (engine : Engine) (query : Query) : Target → Except EngineError String
  | .sql => (engine.toSql query).map statementText
  | .malloy => (engine.toMalloy query).map line
  | .cypher => (engine.toCypher query).map line
  | .dump => .ok query.dump

/-- A configuration is written only where there is none. -/
def runSetUp (files : Files) (directory : String) : Except CommandError Outcome :=
  match files.read (Path.join directory configurationFile) with
  | .ok _ | .error .isDirectory => .error (.alreadyInitialized directory)
  | .error .notDirectory => .error (.unreadableFile .notDirectory)
  | .error .missing =>
    .ok ⟨line ("initialized " ++ directory), configurationFiles .initial directory⟩

/-- The query is read before the configuration, so that its errors are told first. -/
def runDisplay (files : Files) (environment : Environment) (directory : String) (target : Target)
    (file : String) : Except CommandError Outcome := do
  let text ← (files.read file).mapError .unreadableFile
  let query ← (Query.ofText text).mapError .query
  let engine ← openEngine files environment directory
  return ⟨← (targetText engine query target).mapError .engine, []⟩

/-- Every statement stands on a line of its own. -/
def runTables (files : Files) (environment : Environment) (directory : String) :
    Except CommandError Outcome := do
  let engine ← openEngine files environment directory
  let statements ← engine.tableStatements.mapError .engine
  return ⟨String.join (statements.map fun text => line (text ++ ";")), []⟩

/-- Carry out a command in a directory. -/
def run (files : Files) (environment : Environment) (directory : String) :
    Command → Except CommandError Outcome
  | setUp => runSetUp files directory
  | display target file => runDisplay files environment directory target file
  | tables => runTables files environment directory

end Command
end ObjectGraph
