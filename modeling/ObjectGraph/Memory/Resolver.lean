/-
# Where objects come from

A resolver hands out the objects of a graph one by one.  The graph may change while a query
runs, so an answer may depend on all calls that were made before; a stable resolver's does not.
-/
import ObjectGraph.Item

namespace ObjectGraph

/-- A call to a resolver, with its answer. -/
inductive Call
  | object (type : String) (id : Int64) (answer : Except String (Option Item))
  | edge (type : String) (item : Item) (edge : String) (answer : Except String (List Int64))
  | all (type : String) (answer : Except String (List Int64))

/-- The calls that were made, the last one first. -/
abbrev History := List Call

/-- What a query needs to know of a graph.  Every answer may be the reason why there is none. -/
structure Resolver where
  /-- The object of a type with an identity, if there is one. -/
  object : History → String → Int64 → Except String (Option Item)
  /-- The identities of the objects an edge reaches from an object of a type. -/
  edge : History → String → Item → String → Except String (List Int64)
  /-- The identities of all objects of a type; some graphs cannot list them. -/
  all : Option (History → String → Except String (List Int64))

namespace Resolver

/-- The resolver whose answers never change. -/
def stable (object : String → Int64 → Except String (Option Item))
    (edge : String → Item → String → Except String (List Int64))
    (all : Option (String → Except String (List Int64))) : Resolver where
  object _ := object
  edge _ := edge
  all := all.map fun answer _ => answer

/-- A resolver's answers do not depend on the calls made before. -/
def IsStable (resolver : Resolver) : Prop :=
  ∃ object edge all, resolver = stable object edge all

end Resolver

namespace History

/-- How many objects a resolver handed out. -/
def objectCount (history : History) : Nat :=
  history.countP fun
    | .object _ _ (.ok (some _)) => true
    | _ => false

end History
end ObjectGraph
