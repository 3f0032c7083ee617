/-
# Building queries step by step

Operations are added at the end.  `edge` opens a scope: what is added from then on applies to
the objects the edge reaches, until `parent` closes the scope again.
-/
import ObjectGraph.Predicate.Parser
import ObjectGraph.Query

namespace ObjectGraph

/-- An edge whose operations are still being added. -/
structure Scope where
  edge : String
  operations : List Operation

/-- A query under construction, with its open scopes, the innermost first. -/
structure Builder where
  source : Source
  operations : List Operation := []
  scopes : List Scope := []

namespace Builder

/-- Begin with all objects of a type, or with those that have the given identities. -/
def start (objectType : String) (ids : Option (List Int64) := none) : Builder where
  source := { objectType, ids }

/-- Add an operation to the innermost scope. -/
def push (builder : Builder) (operation : Operation) : Builder :=
  match builder.scopes with
  | [] => { builder with operations := builder.operations ++ [operation] }
  | scope :: outer =>
    { builder with
      scopes := { scope with operations := scope.operations ++ [operation] } :: outer }

/-- Keep only some fields. -/
def project (builder : Builder) (fields : List String) : Builder :=
  builder.push (.project fields)

/-- Keep only what a predicate holds of. -/
def filter (builder : Builder) (predicate : Predicate) : Builder :=
  builder.push (.filter predicate)

/-- Add a filter that is given as text. -/
def filterText (builder : Builder) (text : String) : Except Predicate.ParseError Builder :=
  (Predicate.parse text).map builder.filter

/-- Keep only the first ones. -/
def take (builder : Builder) (count : UInt32) : Builder :=
  builder.push (.take count)

/-- Leave out the first ones. -/
def skip (builder : Builder) (count : UInt32) : Builder :=
  builder.push (.skip count)

/-- Count them. -/
def count (builder : Builder) : Builder :=
  builder.push .count

/-- Put them together under a key. -/
def nest (builder : Builder) (key : String) : Builder :=
  builder.push (.nest key)

/-- Rename a field. -/
def rename (builder : Builder) (old new : String) : Builder :=
  builder.push (.rename old new)

/-- Sort by a field, upwards unless told otherwise. -/
def orderBy (builder : Builder) (key : String) (direction : Direction := .ascending) : Builder :=
  builder.push (.orderBy key direction)

/-- Gather those that share the value of a field. -/
def groupBy (builder : Builder) (key : String) : Builder :=
  builder.push (.groupBy key)

/-- Append the results of one query. -/
def union (builder : Builder) (query : Query) : Builder :=
  builder.push (.union [query])

/-- Open the scope of an edge. -/
def edge (builder : Builder) (name : String) : Builder :=
  { builder with scopes := ⟨name, []⟩ :: builder.scopes }

/-- Close the innermost scope; without one there is nothing to do. -/
def parent (builder : Builder) : Builder :=
  match builder.scopes with
  | [] => builder
  | scope :: outer => { builder with scopes := outer }.push (.edge scope.edge scope.operations)

/-- The operations that remain when all scopes are closed, `last` being added to the innermost
one. -/
def closeScopes (operations last : List Operation) : List Scope → List Operation
  | [] => operations ++ last
  | scope :: outer =>
    closeScopes operations [.edge scope.edge (scope.operations ++ last)] outer

/-- Close all scopes and give the query. -/
def build (builder : Builder) : Query :=
  ⟨builder.source, closeScopes builder.operations [] builder.scopes⟩

end Builder
end ObjectGraph
