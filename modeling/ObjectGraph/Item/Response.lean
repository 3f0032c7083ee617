/-
# Results of queries

The objects a query gave, in their order, as a list or by identity.
-/
import ObjectGraph.Item
import ObjectGraph.Json.Writer

namespace ObjectGraph

/-- The objects a query gave. -/
structure Response where
  items : List Item

namespace Response

/-- The item a value is, if it is an object. -/
def item? : Json → Option Item
  | .object members => some ⟨.ofList members⟩
  | _ => none

/-- Read the objects of an array, or a single object, with all keys normalized.  What is not an
object is left out. -/
def ofRows (rows : Json) : Response :=
  match rows.normalize with
  | .array values => ⟨values.filterMap item?⟩
  | .object members => ⟨[⟨.ofList members⟩]⟩
  | _ => ⟨[]⟩

/-- The number of items. -/
def size (response : Response) : Nat := response.items.length

/-- Whether there are no items. -/
def isEmpty (response : Response) : Bool := response.items.isEmpty

/-- The items as objects. -/
def toList (response : Response) : List Json := response.items.map Item.toJson

/-- The key of an item in a dictionary: its identity, written as JSON unless it is a string. -/
def keyOf (item : Item) : Option String :=
  item.id?.map fun
    | .string s => s
    | id => id.compact

/-- The objects by identity.  Those without one are left out, and of several with the same
identity the first gives the place and the last the object. -/
def toDictionary (response : Response) : OrderedMap Json :=
  .ofList (response.items.filterMap fun item => (keyOf item).map (·, item.toJson))

end Response
end ObjectGraph
