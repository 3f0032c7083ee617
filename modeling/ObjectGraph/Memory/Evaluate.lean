/-
# Evaluating predicates

Whether an item satisfies a predicate.  A missing field counts as null, and a comparison with
null, or of values of different kinds, does not hold unless it asks for null itself.
-/
import ObjectGraph.Item
import ObjectGraph.Memory.Order

namespace ObjectGraph

/-- Whether there is no value. -/
def isNothing : Option Json → Bool
  | none | some .null => true
  | _ => false

/-- Whether an operator holds between a value, which may be missing, and a literal. -/
def compareWithLiteral (value : Option Json) (operator : ComparisonOperator) :
    Literal → Bool
  | .null =>
    match operator with
    | .equals => isNothing value
    | .notEquals => !isNothing value
    | _ => false
  | literal =>
    match value.bind (compareLiteral · literal) with
    | some order => operator.holds order
    | none => false

namespace Item

/-- The value a reference means. -/
def valueOf (item : Item) (reference : String) : Option Json :=
  item.get? (unqualified reference)

end Item

namespace Predicate

mutual

/-- Whether an item satisfies a predicate. -/
def evaluate (item : Item) : Predicate → Bool
  | all parts => evaluateAll item parts
  | any parts => evaluateAny item parts
  | negation part => !evaluate item part
  | comparison field operator value => compareWithLiteral (item.valueOf field) operator value
  | oneOf field values => values.any (compareWithLiteral (item.valueOf field) .equals)
  | isNull field => isNothing (item.valueOf field)

/-- Whether all parts hold of an item. -/
def evaluateAll (item : Item) : List Predicate → Bool
  | [] => true
  | part :: rest => evaluate item part && evaluateAll item rest

/-- Whether some part holds of an item. -/
def evaluateAny (item : Item) : List Predicate → Bool
  | [] => false
  | part :: rest => evaluate item part || evaluateAny item rest

end

end Predicate
end ObjectGraph
