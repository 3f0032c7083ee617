/-
# Predicates

Conditions on the fields of a single object, and the text they are written in:
`age >= 16 and not (name == 'bob' or active == true)`.
-/
import ObjectGraph.Catalog.Scalar
import ObjectGraph.Double.Notation
import ObjectGraph.Json
import ObjectGraph.Text.Quoted

namespace ObjectGraph

/-- A value that a field is compared with. -/
inductive Literal
  | null
  | boolean (b : Bool)
  | integer (i : Int64)
  | float (x : Double)
  | string (s : String)
deriving DecidableEq

/-- A condition on an object. -/
inductive Predicate
  /-- Every part holds. -/
  | all (parts : List Predicate)
  /-- Some part holds. -/
  | any (parts : List Predicate)
  | negation (part : Predicate)
  | comparison (field : String) (operator : ComparisonOperator) (value : Literal)
  /-- The field equals one of the values. -/
  | oneOf (field : String) (values : List Literal)
  | isNull (field : String)

/-- The field a reference means, without the variable in front of it: `user.age` means
`age`. -/
def unqualified (reference : String) : String :=
  match reference.toList.dropWhile (· != '.') with
  | [] => reference
  | _ :: field => String.ofList field

/-- The literal as it is written in a predicate. -/
def Literal.text : Literal → String
  | null => "null"
  | boolean b => if b then "true" else "false"
  | integer i => toString i.toInt
  | float x => x.render Double.plainStyle
  | string s => Text.quoteSingle s

namespace Predicate

instance : Inhabited Predicate := ⟨all []⟩

mutual

/-- Whether two predicates are built alike. -/
def beq : Predicate → Predicate → Bool
  | all ps, all qs => beqParts ps qs
  | any ps, any qs => beqParts ps qs
  | negation p, negation q => beq p q
  | comparison f o v, comparison g o' w => f == g && o == o' && v == w
  | oneOf f vs, oneOf g ws => f == g && vs == ws
  | isNull f, isNull g => f == g
  | _, _ => false

/-- Whether two lists have the same predicates at the same places. -/
def beqParts : List Predicate → List Predicate → Bool
  | [], [] => true
  | p :: ps, q :: qs => beq p q && beqParts ps qs
  | _, _ => false

end

instance : BEq Predicate := ⟨beq⟩

/-- The parts of a conjunction; any other predicate is its own only part. -/
def conjuncts : Predicate → List Predicate
  | all parts => parts
  | p => [p]

/-- Both predicates hold, as one conjunction. -/
def and (p q : Predicate) : Predicate :=
  all (p.conjuncts ++ q.conjuncts)

/-- Whether a predicate needs parentheses inside others. -/
def isCompound : Predicate → Bool
  | all _ | any _ => true
  | _ => false

/-- Put parentheses around the text of a compound predicate. -/
def guarded (p : Predicate) (text : String) : String :=
  if p.isCompound then "(" ++ text ++ ")" else text

mutual

/-- The text of a predicate. -/
def text : Predicate → String
  | all parts => " and ".intercalate (partTexts parts)
  | any parts => " or ".intercalate (partTexts parts)
  | negation p => "not " ++ p.guarded p.text
  | comparison field operator value => field ++ " " ++ operator.symbol ++ " " ++ value.text
  | oneOf field values => field ++ " in (" ++ ", ".intercalate (values.map Literal.text) ++ ")"
  | isNull field => field ++ " == null"

/-- The texts of the parts, in parentheses where they need them. -/
def partTexts : List Predicate → List String
  | [] => []
  | p :: rest => p.guarded p.text :: partTexts rest

end

end Predicate
end ObjectGraph
