/-
# Predicates as SQL conditions

Fields become expressions over the rows of a draft, and every literal is checked against the
type of the field it is compared with.
-/
import ObjectGraph.Compile.Draft

namespace ObjectGraph.Compile

open Sql (Expression Value)

/-- A literal as a value of a type, if it suits the type. -/
def suitable? (type : ScalarType) : Literal → Option Expression
  | .null => some (.value .null)
  | .boolean b => if type == .boolean then some (.value (.boolean b)) else none
  | .integer i => if type.isInteger || type.isFloat then some (.value (.integer i)) else none
  | .float x => if type.isFloat then some (.value (.float x)) else none
  | .string s =>
    if type.isText then some (.value (.string s))
    else if type.isStringEncoded then some (.cast (.value (.string s)) type.sqlName)
    else none

/-- A literal that is compared with a column whose type is unknown. -/
def untyped : Literal → Value
  | .null => .null
  | .boolean b => .boolean b
  | .integer i => .integer i
  | .float x => .float x
  | .string s => .string s

/-- Whether a literal is a number that SQL has no notation for. -/
def nonFinite? : Literal → Option Double
  | .float x => if x.isFinite then none else some x
  | _ => none

/-- The expression of a literal that is compared with a field. -/
def literal (field : String) (type : Option ScalarType) (value : Literal) :
    Except CompileError Expression :=
  match nonFinite? value, type with
  | some x, _ => .error (.notSupported (.nonFinite x field))
  | none, none => .ok (.value (untyped value))
  | none, some type =>
    match suitable? type value with
    | some e => .ok e
    | none => .error (.typeMismatch field type value.text)

/-- The literals of a list. -/
def literals (field : String) (type : Option ScalarType) :
    List Literal → Except CompileError (List Expression)
  | [] => .ok []
  | value :: rest => do
    let e ← literal field type value
    return e :: (← literals field type rest)

/-- Refuse an operator that the type of a field does not support. -/
def checkOperator (field : String) (operator : ComparisonOperator) :
    Option ScalarType → Except CompileError Unit
  | some type =>
    if type.supports operator then .ok ()
    else .error (.operatorNotSupported field operator type)
  | none => .ok ()

/-- Whether an operator holds between an expression and `null`: only equality can be asked. -/
def nullCheck (field : String) (operator : ComparisonOperator) (e : Expression) :
    Except CompileError Expression :=
  match operator with
  | .equals => .ok (.isNull e)
  | .notEquals => .ok (.not (.isNull e))
  | _ => .error (.notSupported (.nullOrdering field operator))

/-- The comparison of a field with a literal. -/
def comparison (catalog : Catalog) (draft : Draft) (field : String)
    (operator : ComparisonOperator) (value : Literal) : Except CompileError Expression := do
  let (e, type) ← draft.resolve catalog field
  match value with
  | .null => nullCheck field operator e
  | value =>
    checkOperator field operator type
    return .comparison e (Sql.operatorText operator) (← literal field type value)

/-- The test whether a field equals one of several literals. -/
def membership (catalog : Catalog) (draft : Draft) (field : String) (values : List Literal) :
    Except CompileError Expression := do
  let (e, type) ← draft.resolve catalog field
  checkOperator field .equals type
  if values.isEmpty then return .false
  return .isIn e (← literals field type values)

mutual

/-- The condition of a predicate on the rows of a draft. -/
def condition (catalog : Catalog) (draft : Draft) : Predicate → Except CompileError Expression
  | .all parts => conjunction catalog draft .true parts
  | .any [] => return .false
  | .any (part :: rest) => do disjunction catalog draft (← condition catalog draft part) rest
  | .negation part => do return .not (← condition catalog draft part)
  | .comparison field operator value => comparison catalog draft field operator value
  | .oneOf field values => membership catalog draft field values
  | .isNull field => do return .isNull (← draft.resolve catalog field).1

/-- The conditions of all parts, after those that were compiled before. -/
def conjunction (catalog : Catalog) (draft : Draft) (before : Expression) :
    List Predicate → Except CompileError Expression
  | [] => return before
  | part :: rest => do
    conjunction catalog draft (before.both (← condition catalog draft part)) rest

/-- The condition in front or one of the parts. -/
def disjunction (catalog : Catalog) (draft : Draft) (before : Expression) :
    List Predicate → Except CompileError Expression
  | [] => return before
  | part :: rest => do
    disjunction catalog draft (.or before (← condition catalog draft part)) rest

end

end ObjectGraph.Compile
