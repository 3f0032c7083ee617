/-
# Objects in results

An item is a JSON object whose identity is stored under `:id` and whose type under `:type`,
whatever spelling it came with.
-/
import ObjectGraph.Catalog
import ObjectGraph.Json

namespace ObjectGraph

/-- The key under which a member is stored: the identity and the type have one spelling each. -/
def normalizeKey (key : String) : String :=
  if key = "id" then idKey else if key = "_type" then typeKey else key

namespace Json

mutual

/-- Normalize the keys of every object inside a value.  Of members whose keys become equal, the
first gives the place and the last the value. -/
def normalize : Json → Json
  | array items => array (normalizeItems items)
  | object members => object (Named.collapse (normalizeMembers members))
  | value => value

/-- The items of a list with all keys in them normalized. -/
def normalizeItems : List Json → List Json
  | [] => []
  | item :: rest => normalize item :: normalizeItems rest

/-- The members of an object with their keys and all keys in them normalized. -/
def normalizeMembers : List (String × Json) → List (String × Json)
  | [] => []
  | (key, value) :: rest => (normalizeKey key, normalize value) :: normalizeMembers rest

end

end Json

/-- An object in a result. -/
structure Item where
  members : OrderedMap Json

namespace Item

/-- The item without fields. -/
def empty : Item := ⟨.empty⟩

instance : Inhabited Item := ⟨empty⟩

/-- The item with the given members, the keys of its own members normalized. -/
def ofMembers (members : List (String × Json)) : Item :=
  ⟨.ofList (members.map fun (key, value) => (normalizeKey key, value))⟩

/-- The names of the fields, in order. -/
def keys (item : Item) : List String := item.members.keys

/-- The item as a JSON object. -/
def toJson (item : Item) : Json := .object item.members.entries

/-- The identity of an item. -/
def id? (item : Item) : Option Json := item.members.get? idKey

/-- The type of an item, if its tag is a string. -/
def type? (item : Item) : Option String :=
  match item.members.get? typeKey with
  | some (.string name) => some name
  | _ => none

/-- The value of a field.  `id` and `:id` both mean the identity, unless each is a key of its
own. -/
def get? (item : Item) (field : String) : Option Json :=
  (item.members.get? field).or
    (if field = "id" then item.members.get? idKey
     else if field = idKey then item.members.get? "id"
     else none)

/-- The key under which a field is stored in the items that are made from others. -/
def outputKey (field : String) : String := normalizeKey field

/-- Store a value under a key; a key that is there already keeps its place. -/
def insert (item : Item) (key : String) (value : Json) : Item :=
  ⟨item.members.insert key value⟩

/-- Items that have identities are the same when their identities are, and others when their
members are. -/
def same (a b : Item) : Bool :=
  match a.id?, b.id? with
  | some x, some y => x.same y
  | _, _ => a.toJson.same b.toJson

end Item
end ObjectGraph
