/-
# Queries that cannot be compiled

Why a query has no counterpart in a target language, and the look-ups that tell whether the
types and edges it names exist.
-/
import ObjectGraph.Catalog
import ObjectGraph.Double.Notation
import ObjectGraph.Text.Quoted

namespace ObjectGraph

/-- Where a field was looked for. -/
inductive FieldScope
  | type (name : String)
  /-- Rows that are no objects of one type any more. -/
  | results
deriving DecidableEq

/-- The objects of a type, if the type of the rows is known. -/
def FieldScope.ofType : Option String → FieldScope
  | some name => type name
  | none => results

/-- How it is said where a field was looked for. -/
def FieldScope.text : FieldScope → String
  | type name => "object type '" ++ name ++ "'"
  | results => "the query results"

/-- What a target language, or the way it is used here, has no means for. -/
inductive Feature
  /-- An order in which `null` has no place. -/
  | nullOrdering (field : String) (operator : ComparisonOperator)
  | nonFinite (x : Double) (field : String)
  | edgeOfAggregate (edge : String)
  | inMalloy (what : String)
  | inCypher (what : String)
deriving DecidableEq

/-- How a feature is spoken of. -/
def Feature.text : Feature → String
  | nullOrdering field operator =>
    "comparing '" ++ field ++ "' with null using '" ++ operator.symbol ++ "'"
  | nonFinite x field =>
    "the non-finite number " ++ x.render Double.plainStyle ++ " in a comparison with '"
      ++ field ++ "'"
  | edgeOfAggregate edge => "traversing edge '" ++ edge ++ "' from aggregated results"
  | inMalloy what => what ++ " in Malloy output"
  | inCypher what => what ++ " in Cypher output"

/-- Why a query cannot be compiled. -/
inductive CompileError
  | typeNotFound (name : String)
  | fieldNotFound (field : String) (scope : FieldScope)
  | edgeNotFound (type edge : String)
  | typeMismatch (field : String) (expected : ScalarType) (value : String)
  | operatorNotSupported (field : String) (operator : ComparisonOperator) (type : ScalarType)
  | unionMismatch (expected found : List String)
  | notSupported (feature : Feature)
deriving DecidableEq

/-- What is said of an error. -/
def CompileError.message : CompileError → String
  | typeNotFound name => "object type '" ++ name ++ "' not found"
  | fieldNotFound field scope => "field '" ++ field ++ "' not found in " ++ scope.text
  | edgeNotFound type edge =>
    "edge '" ++ edge ++ "' not found on object type '" ++ type ++ "'"
  | typeMismatch field expected value =>
    "value " ++ value ++ " does not match type " ++ expected.sqlName ++ " of field '" ++ field
      ++ "'"
  | operatorNotSupported field operator type =>
    "operator '" ++ operator.symbol ++ "' is not supported on field '" ++ field ++ "' of type "
      ++ type.sqlName
  | unionMismatch expected found =>
    "union branches produce different fields: expected " ++ Text.revealList expected
      ++ ", found " ++ Text.revealList found
  | notSupported feature => feature.text ++ " is not supported"

namespace Catalog

/-- A type that a query names. -/
def requireType (catalog : Catalog) (name : String) : Except CompileError ObjectType :=
  match catalog.type? name with
  | some type => .ok type
  | none => .error (.typeNotFound name)

/-- An edge that a query follows, and the type of the objects it reaches. -/
def requireEdge (catalog : Catalog) (type edge : String) :
    Except CompileError (Edge × ObjectType) := do
  let source ← catalog.requireType type
  match source.edges.get? edge with
  | none => .error (.edgeNotFound type edge)
  | some found => return (found, ← catalog.requireType found.target)

end Catalog

namespace ObjectType

/-- The field that identifies the objects of the type of the given name. -/
def requireIdentity (type : ObjectType) (name : String) : Except CompileError Field :=
  match type.identity? with
  | some field => .ok field
  | none => .error (.fieldNotFound type.idField (.type name))

end ObjectType
end ObjectGraph
