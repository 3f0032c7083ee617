/-
# JSON values

Objects keep the order of their members.  Numbers are integers or doubles, and the two kinds
never equal each other: `1` and `1.0` are different values.
-/
import ObjectGraph.Double
import ObjectGraph.Named

namespace ObjectGraph

namespace Json

/-- A number as written: with a fraction or an exponent it is a double. -/
inductive Number
  | int (i : Int)
  | float (x : Double)
deriving DecidableEq, Repr

/-- Equal numbers of the same kind. -/
def Number.same : Number → Number → Bool
  | .int i, .int j => i == j
  | .float x, .float y => x.equals y
  | _, _ => false

/-- An integer as one of 64 bits, if it fits. -/
def int64? (i : Int) : Option Int64 :=
  if Int64.minValue.toInt ≤ i ∧ i ≤ Int64.maxValue.toInt then some (Int64.ofInt i) else none

/-- The number as a 64-bit integer, if it is an integer that fits. -/
def Number.int64? : Number → Option Int64
  | .int i => Json.int64? i
  | .float _ => none

/-- The double nearest to the number. -/
def Number.toDouble : Number → Double
  | .int i => Double.ofInt i
  | .float x => x

end Json

/-- A JSON value. -/
inductive Json
  | null
  | boolean (b : Bool)
  | number (n : Json.Number)
  | string (s : String)
  | array (items : List Json)
  | object (members : List (String × Json))
deriving Repr

namespace Json

instance : Inhabited Json := ⟨null⟩

/-- The number of an integer. -/
def int (i : Int) : Json := .number (.int i)

/-- The name of a value's kind. -/
def kind : Json → String
  | null => "null"
  | boolean _ => "boolean"
  | number _ => "number"
  | string _ => "string"
  | array _ => "array"
  | object _ => "object"

mutual

/-- Equality that does not look at the order of members. -/
def same : Json → Json → Bool
  | null, null => true
  | boolean a, boolean b => a == b
  | number a, number b => a.same b
  | string a, string b => a == b
  | array a, array b => sameItems a b
  | object a, object b => a.length == b.length && sameMembers a b
  | _, _ => false

/-- Whether two lists have the same items at the same places. -/
def sameItems : List Json → List Json → Bool
  | [], [] => true
  | a :: as, b :: bs => same a b && sameItems as bs
  | _, _ => false

/-- Whether every member on the left has an equal one of the same name on the right. -/
def sameMembers : List (String × Json) → List (String × Json) → Bool
  | [], _ => true
  | (k, v) :: rest, ms =>
    (match ms.lookup k with
      | some w => same v w
      | none => false) && sameMembers rest ms

end

mutual

/-- No object inside the value names a member twice. -/
def WellFormed : Json → Prop
  | array items => ItemsWellFormed items
  | object members => (Named.keys members).Nodup ∧ MembersWellFormed members
  | _ => True

/-- Whether all items of a list are well-formed. -/
def ItemsWellFormed : List Json → Prop
  | [] => True
  | item :: rest => item.WellFormed ∧ ItemsWellFormed rest

/-- Whether the values of all members are well-formed. -/
def MembersWellFormed : List (String × Json) → Prop
  | [] => True
  | (_, value) :: rest => value.WellFormed ∧ MembersWellFormed rest

end

end Json
end ObjectGraph
