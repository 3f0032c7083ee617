/-
# The order of values

Values are ordered by their kind and, where the kind has an order, among themselves: booleans,
numbers, strings, arrays, objects, and in the end what is null or missing.  Sorting moves an
object only past those that are greater, so objects that are equal keep their order.

An order that is a total preorder on a list has only one such result.  For any other order the
result depends on which elements are compared, and the one given here is one of many.
-/
import ObjectGraph.Json
import ObjectGraph.Predicate

namespace ObjectGraph

/-- The order of two numbers.  Integers that both fit into 64 bits are compared exactly, all
others as doubles. -/
def Json.Number.order (m n : Json.Number) : Ordering :=
  match m.int64?, n.int64? with
  | some i, some j => compare i.toInt j.toInt
  | _, _ => m.toDouble.compare n.toDouble

/-- The place of a kind of value in the order. -/
def kindRank : Option Json → Nat
  | some (.boolean _) => 0
  | some (.number _) => 1
  | some (.string _) => 2
  | some (.array _) => 3
  | some (.object _) => 4
  | none | some .null => 5

/-- The order of two values, each of which may be missing. -/
def compareValues : Option Json → Option Json → Ordering
  | some (.boolean a), some (.boolean b) => compare a b
  | some (.number a), some (.number b) => a.order b
  | some (.string a), some (.string b) => compare a b
  | a, b => compare (kindRank a) (kindRank b)

/-- The order of a value and a literal of the same kind. -/
def compareLiteral : Json → Literal → Option Ordering
  | .boolean a, .boolean b => some (compare a b)
  | .string a, .string b => some (compare a b)
  | .number a, .integer b => some (a.order (.int b.toInt))
  | .number a, .float b => some (a.toDouble.compare b)
  | _, _ => none

/-! ### Sorting -/

namespace Stable

variable {α : Type}

/-- Put an element behind those that are not greater; the list holds the last element first. -/
def insertLast (order : α → α → Ordering) (a : α) : List α → List α
  | [] => [a]
  | b :: rest => if order a b = .lt then b :: insertLast order a rest else a :: b :: rest

/-- Sort a list, elements that are equal keeping their order.  Every element is compared with
those before it, from the last one on, until one is not greater. -/
def sort (order : α → α → Ordering) (l : List α) : List α :=
  (l.foldl (fun sorted a => insertLast order a sorted) []).reverse

end Stable
end ObjectGraph
