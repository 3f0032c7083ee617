/-
# Queries

A query names the objects it starts from and the operations that are applied to them, one after
the other.
-/
import ObjectGraph.Predicate

namespace ObjectGraph

/-- The objects of a type: those with the given identities, or all of them. -/
structure Source where
  objectType : String
  ids : Option (List Int64) := none
deriving DecidableEq

/-- The direction that rows are sorted in. -/
inductive Direction
  | ascending
  | descending
deriving DecidableEq, Repr

mutual

/-- A step of a query. -/
inductive Operation
  /-- Keep only the listed fields of each object. -/
  | project (fields : List String)
  /-- Keep the objects that satisfy a predicate. -/
  | filter (predicate : Predicate)
  /-- Keep the first objects. -/
  | take (count : UInt32)
  /-- Drop the first objects. -/
  | skip (count : UInt32)
  /-- One object that holds the number of objects. -/
  | count
  /-- One object that holds all objects under a key. -/
  | nest (key : String)
  /-- Rename a field of each object. -/
  | rename (old new : String)
  /-- Sort by a field; objects that are equal in it keep their order. -/
  | orderBy (key : String) (direction : Direction)
  /-- Sort by a field and gather the objects that share a value of it. -/
  | groupBy (key : String)
  /-- Attach to each object those an edge reaches from it, after operations of their own. -/
  | edge (name : String) (operations : List Operation)
  /-- Append the results of other queries. -/
  | union (queries : List Query)

/-- A source and the operations on its objects. -/
structure Query where
  source : Source
  operations : List Operation

end

instance : Inhabited Operation := ⟨.count⟩

/-- Whether an operation turns the objects into something else than a list of them. -/
def Operation.isAggregation : Operation → Bool
  | count | nest _ | groupBy _ => true
  | _ => false

namespace Query

/-- All objects of a type. -/
def collection (objectType : String) : Query :=
  ⟨{ objectType }, []⟩

/-- The objects of a type with the given identities. -/
def withIds (objectType : String) (ids : List Int64) : Query :=
  ⟨{ objectType, ids := some ids }, []⟩

/-- The query that stops after its first `n` operations. -/
def upTo (query : Query) (n : Nat) : Query :=
  { query with operations := query.operations.take n }

end Query
end ObjectGraph
