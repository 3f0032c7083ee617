/-
# Engines

An engine compiles and runs queries against one configuration.  It has no connection to a
database, so whatever needs one is refused.
-/
import ObjectGraph.Compile.Tables
import ObjectGraph.Configuration
import ObjectGraph.Cypher.Compile
import ObjectGraph.Malloy.Compile
import ObjectGraph.Memory.Run
import ObjectGraph.Sql.Render

namespace ObjectGraph

/-- Why an engine cannot do what it is asked for. -/
inductive EngineError
  | compile (e : CompileError)
  | run (e : RunError)
  | notConnected
deriving DecidableEq

/-- What is said of an error, with the part of the engine it comes from. -/
def EngineError.message : EngineError → String
  | compile e => "translation error: " ++ e.message
  | run e => "execution error: " ++ e.message
  | notConnected => "the engine is not connected to a database"

/-- What is needed to compile and run queries. -/
structure Engine where
  settings : Settings

namespace Engine

/-- An error of compilation as one of the engine. -/
def compiled {α : Type} : Except CompileError α → Except EngineError α :=
  Except.mapError .compile

/-- The statement whose only value is the array of all objects of a query's result. -/
def toSql (engine : Engine) (query : Query) : Except EngineError Sql.Statement :=
  compiled do return (← Compile.plan engine.settings.catalog query).select.statement

/-- The Malloy text of a query, over the configured connection. -/
def toMalloy (engine : Engine) (query : Query) : Except EngineError String :=
  compiled do
    let connection := engine.settings.malloy.connection
    return (← Malloy.compile engine.settings.catalog query connection).text

/-- The Cypher text of a query. -/
def toCypher (engine : Engine) (query : Query) : Except EngineError String :=
  compiled do return (← Cypher.compile engine.settings.catalog query).text

/-- The statements that create the tables of all object types. -/
def tableStatements (engine : Engine) : Except EngineError (List String) :=
  compiled (Compile.tableStatements engine.settings.catalog)

/-- Run a query against a resolver. -/
def runInMemory (engine : Engine) (resolver : Resolver) (query : Query) :
    Except EngineError Response :=
  let graph : Graph := { catalog := engine.settings.catalog, resolver }
  (graph.execute query).mapError .run

/-- Run a query against the database. -/
def execute (_ : Engine) (_ : Query) : Except EngineError Response := .error .notConnected

/-- The text of a query's statement, and how the database would run it. -/
def explain (_ : Engine) (_ : Query) : Except EngineError (String × String) :=
  .error .notConnected

/-- Create the tables of all object types in the database. -/
def createTables (_ : Engine) : Except EngineError Unit := .error .notConnected

end Engine
end ObjectGraph
