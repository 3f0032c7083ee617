/-
# Running queries in memory

The objects of a query's source are resolved one by one, and its operations are applied to them.
A row remembers the object it was made from, whatever became of its fields, because edges are
followed from that object.  Once objects are aggregated there is none.
-/
import ObjectGraph.Catalog.Validation
import ObjectGraph.Item.Response
import ObjectGraph.Memory.Reshape
import ObjectGraph.Memory.Resolver
import ObjectGraph.Query

namespace ObjectGraph

/-- Why a query cannot be run. -/
inductive RunError
  | typeNotFound (name : String)
  | edgeNotFound (type edge : String)
  | invalidObject (type : String) (id : Int64) (reason : ValidationError)
  | edgeFromAggregate (edge : String)
  /-- All objects of a type are asked for, and the resolver cannot list them. -/
  | notListed (type : String)
  /-- The resolver failed. -/
  | unresolved (reason : String)
deriving DecidableEq

/-- What is said of an error. -/
def RunError.message : RunError → String
  | typeNotFound name => "object type '" ++ name ++ "' not found"
  | edgeNotFound type edge =>
    "edge '" ++ edge ++ "' not found on object type '" ++ type ++ "'"
  | invalidObject type id reason =>
    "object " ++ toString id.toInt ++ " of type '" ++ type ++ "' is invalid: " ++ reason.message
  | edgeFromAggregate edge => "cannot traverse edge '" ++ edge ++ "' from aggregated results"
  | notListed type => "listing every object of type '" ++ type ++ "' is not supported"
  | unresolved reason => "resolver error: " ++ reason

/-- An item and the object it was made from. -/
structure Row where
  item : Item
  /-- The object as it was resolved; `none` for aggregates. -/
  origin : Option Item

namespace Row

/-- The row of an object of the graph. -/
def ofObject (item : Item) : Row := ⟨item, some item⟩

/-- The row of an item that is no object of the graph. -/
def aggregate (item : Item) : Row := ⟨item, none⟩

/-- Change the item, but not where it comes from. -/
def mapItem (f : Item → Item) (row : Row) : Row := { row with item := f row.item }

end Row

/-- The rows a query gave so far. -/
structure Rows where
  rows : List Row
  /-- The type of the items, while all are objects of one type. -/
  type : Option String

namespace Rows

/-- The items of the rows. -/
def items (rows : Rows) : List Item := rows.rows.map (·.item)

/-- Items that are no objects of the graph any more. -/
def aggregated (items : List Item) : Rows := ⟨items.map Row.aggregate, none⟩

/-- Change every item, but not where it comes from. -/
def mapItems (f : Item → Item) (rows : Rows) : Rows :=
  { rows with rows := rows.rows.map (Row.mapItem f) }

/-- The order of two rows by the values of a field. -/
def rowOrder (key : String) (direction : Direction) (a b : Row) : Ordering :=
  match direction with
  | .ascending => a.item.orderBy key b.item
  | .descending => (a.item.orderBy key b.item).swap

/-- Apply an operation that needs no other objects. -/
def apply (rows : Rows) : Operation → Rows
  | .project fields => rows.mapItems (·.project fields)
  | .filter predicate => { rows with rows := rows.rows.filter (predicate.evaluate ·.item) }
  | .take n => { rows with rows := rows.rows.take n.toNat }
  | .skip n => { rows with rows := rows.rows.drop n.toNat }
  | .count => aggregated [Item.counted rows.rows.length]
  | .nest key => aggregated [Item.nested key rows.items]
  | .rename old new => rows.mapItems (·.rename old new)
  | .orderBy key direction =>
    { rows with rows := Stable.sort (rowOrder (unqualified key) direction) rows.rows }
  | .groupBy key => aggregated (groupBy (unqualified key) rows.items)
  | .edge _ _ | .union _ => rows

/-- The rows of both; they have a type only if it is the same. -/
def append (a b : Rows) : Rows :=
  ⟨a.rows ++ b.rows, if b.type = a.type then a.type else none⟩

end Rows

/-- A run of a query remembers the calls it made and may fail. -/
abbrev Run := ExceptT RunError (StateM History)

namespace Run

/-- End a run with an error. -/
def fail {α : Type} (e : RunError) : Run α := throw e

/-- Do something for all elements of a list.  The calls are started together; the order here, from
the first element on and up to the first failure, is the one that they have when every answer is
ready at once.  The results come in the order of the list either way. -/
def forEach {α β : Type} (f : α → Run β) : List α → Run (List β)
  | [] => return []
  | a :: rest => do
    let b ← f a
    return b :: (← forEach f rest)

/-- The answer to a call, which is remembered. -/
def ask {α : Type} (call : Except String α → Call) (answer : History → Except String α) :
    Run α := do
  let answer := answer (← get)
  modify (call answer :: ·)
  match answer with
  | .ok value => return value
  | .error reason => fail (.unresolved reason)

/-- What comes after a run sees the calls it made, and is left out if it fails. -/
theorem run_bind {α β : Type} (x : Run α) (f : α → Run β) (history : History) :
    (x >>= f).run.run history =
      match x.run.run history with
      | (.ok a, later) => (f a).run.run later
      | (.error e, later) => (.error e, later) := by
  rw [ExceptT.run_bind, StateT.run_bind]
  rcases x.run.run history with ⟨_ | _, _⟩ <;> rfl

/-- A call is remembered whatever its answer is. -/
theorem run_ask {α : Type} (call : Except String α → Call) (answer : History → Except String α)
    (history : History) :
    (ask call answer).run.run history
      = ((answer history).mapError .unresolved, call (answer history) :: history) := by
  unfold ask
  rw [run_bind]
  show (match answer history with
    | .ok value => return value
    | .error reason => fail (.unresolved reason) : Run α).run.run
      (call (answer history) :: history) = _
  cases answer history <;> rfl

/-- Ask for the object of an identity. -/
def askObject (resolver : Resolver) (type : String) (id : Int64) : Run (Option Item) :=
  ask (.object type id) (resolver.object · type id)

/-- Ask where an edge of an object leads. -/
def askEdge (resolver : Resolver) (type : String) (item : Item) (edge : String) :
    Run (List Int64) :=
  ask (.edge type item edge) (resolver.edge · type item edge)

/-- Ask for the identities of all objects of a type, which not every resolver can list. -/
def askAll (resolver : Resolver) (type : String) : Run (List Int64) :=
  match resolver.all with
  | some all => ask (.all type) (all · type)
  | none => fail (.notListed type)

end Run

open Run

/-- What queries are run against. -/
structure Graph where
  catalog : Catalog
  resolver : Resolver
  /-- Whether objects are checked against their types. -/
  validates : Bool := false

namespace Graph

/-- Check the objects that were found; those that were not are left out. -/
def checkObjects (graph : Graph) (name : String) (type : ObjectType) :
    List (Int64 × Option Item) → Except RunError (List Row)
  | [] => .ok []
  | (_, none) :: rest => graph.checkObjects name type rest
  | (id, some item) :: rest => do
    if graph.validates then
      match type.problem? item.members.entries with
      | some reason => throw (.invalidObject name id reason)
      | none => pure ()
    return .ofObject item :: (← graph.checkObjects name type rest)

/-- The objects of a type with the given identities. -/
def resolveObjects (graph : Graph) (name : String) (ids : List Int64) : Run (List Row) :=
  match graph.catalog.type? name with
  | none => fail (.typeNotFound name)
  | some type => do
    let found ← forEach (askObject graph.resolver name) ids
    graph.checkObjects name type (ids.zip found)

/-- The objects of a type: those with the given identities, or all. -/
def resolveSource (graph : Graph) (source : Source) : Run Rows := do
  let ids ← match source.ids with
    | some ids => pure ids
    | none => askAll graph.resolver source.objectType
  return ⟨← graph.resolveObjects source.objectType ids, some source.objectType⟩

/-- The type from which an edge is followed, and the edge. -/
def edgeOf (graph : Graph) (rows : Rows) (name : String) : Except RunError (String × Edge) :=
  match rows.type with
  | none => .error (.edgeFromAggregate name)
  | some type =>
    match graph.catalog.edge? type name with
    | some edge => .ok (type, edge)
    | none => .error (.edgeNotFound type name)

/-- The objects an edge reaches from a row. -/
def reach (graph : Graph) (type : String) (name : String) (edge : Edge) (row : Row) : Run Rows :=
  match row.origin with
  | none => fail (.edgeFromAggregate name)
  | some origin => do
    let ids ← askEdge graph.resolver type origin name
    return ⟨← graph.resolveObjects edge.target ids, some edge.target⟩

/-- The value of an edge: an array of the objects it reaches, or the first one. -/
def edgeValue (cardinality : Cardinality) (items : List Item) : Json :=
  match cardinality, items with
  | .many, items => .array (items.map Item.toJson)
  | .one, [] => .null
  | .one, item :: _ => item.toJson

/-- Store the value of an edge in a row. -/
def attach (name : String) (cardinality : Cardinality) (row : Row) (reached : List Item) : Row :=
  row.mapItem (·.insert name (edgeValue cardinality reached))

mutual

/-- Apply an operation to rows. -/
def step (graph : Graph) (rows : Rows) : Operation → Run Rows
  | .edge name inner => do
    let (type, edge) ← graph.edgeOf rows name
    let reached ← forEach (fun row => do
      return (← pipeline graph (← graph.reach type name edge row) inner).items) rows.rows
    return ⟨List.zipWith (attach name edge.cardinality) rows.rows reached, some type⟩
  | .union queries => appendAll graph rows queries
  | operation => return rows.apply operation

/-- Apply operations, one after the other. -/
def pipeline (graph : Graph) (rows : Rows) : List Operation → Run Rows
  | [] => return rows
  | operation :: rest => do pipeline graph (← step graph rows operation) rest

/-- Append the rows of queries. -/
def appendAll (graph : Graph) (rows : Rows) : List Query → Run Rows
  | [] => return rows
  | ⟨source, operations⟩ :: rest => do
    let branch ← pipeline graph (← graph.resolveSource source) operations
    appendAll graph (rows.append branch) rest

end

/-- The rows of a query. -/
def rows (graph : Graph) (query : Query) : Run Rows := do
  graph.pipeline (← graph.resolveSource query.source) query.operations

/-- Run a query: its result or why there is none, and the calls it made, the last one first. -/
def run (graph : Graph) (query : Query) : Except RunError Response × History :=
  let (result, history) := (graph.rows query).run.run []
  (result.map fun rows => ⟨rows.items⟩, history)

/-- The result of a query. -/
def execute (graph : Graph) (query : Query) : Except RunError Response :=
  (graph.run query).1

end Graph
end ObjectGraph
