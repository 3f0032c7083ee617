/-
# Reshaping items

Items made from others: with only some of their fields, with a field renamed, gathered by the
value of a field, counted, or put together under a key.
-/
import ObjectGraph.Memory.Evaluate

namespace ObjectGraph

namespace Item

/-- Only the listed fields, in the order of the list; a field that is missing becomes null. -/
def project (item : Item) (fields : List String) : Item :=
  fields.foldl (fun projected reference =>
    projected.insert (outputKey (unqualified reference))
      ((item.valueOf reference).getD .null)) empty

/-- Rename a field, which keeps its place. -/
def rename (item : Item) (old new : String) : Item :=
  let old := outputKey (unqualified old)
  let new := outputKey (unqualified new)
  ⟨.ofList (item.members.entries.map fun (key, value) =>
    (if key = old then new else key, value))⟩

/-- The order of two items by the values of a field. -/
def orderBy (key : String) (a b : Item) : Ordering :=
  compareValues (a.get? key) (b.get? key)

/-- The value of a field by which items are gathered. -/
def groupKey (key : String) (item : Item) : Json :=
  (item.get? key).getD .null

/-- The number of items. -/
def counted (n : Nat) : Item := empty.insert "count" (.int n)

/-- All items under a key. -/
def nested (key : String) (items : List Item) : Item :=
  empty.insert key (.array (items.map toJson))

end Item

/-- Items that have the same value in a field. -/
structure Group where
  key : Json
  items : List Item

/-- Put the items that stand next to each other and share a value into groups. -/
def Group.runs (key : String) : List Item → List Group
  | [] => []
  | item :: rest =>
    match runs key rest with
    | [] => [⟨item.groupKey key, [item]⟩]
    | group :: groups =>
      if (item.groupKey key).same group.key then
        ⟨item.groupKey key, item :: group.items⟩ :: groups
      else ⟨item.groupKey key, [item]⟩ :: group :: groups

/-- A group as an item: the value, and the items that share it. -/
def Group.toItem (group : Group) : Item :=
  (Item.empty.insert "key" group.key).insert "items" (.array (group.items.map Item.toJson))

/-- One item for every group of neighbours that share the value of a field. -/
def gatherRuns (key : String) (items : List Item) : List Item :=
  (Group.runs key items).map Group.toItem

/-- One item for every group of items that share the value of a field, in the order of these
values. -/
def groupBy (key : String) (items : List Item) : List Item :=
  gatherRuns key (Stable.sort (Item.orderBy key) items)

end ObjectGraph
