/-
# Scalar types and comparisons

The types a field may have, the operators that compare a field with a literal, and which
operators suit which type.
-/

namespace ObjectGraph

/-- An operator between a field and a literal. -/
inductive ComparisonOperator
  | equals
  | notEquals
  | lessThan
  | lessOrEqual
  | greaterThan
  | greaterOrEqual
deriving DecidableEq, Repr

namespace ComparisonOperator

/-- Every operator with its name in query files. -/
def names : List (String × ComparisonOperator) :=
  [("equals", equals), ("not_equals", notEquals), ("less_than", lessThan),
   ("less_than_or_equal_to", lessOrEqual), ("greater_than", greaterThan),
   ("greater_than_or_equal_to", greaterOrEqual)]

/-- Every operator. -/
def all : List ComparisonOperator := names.map Prod.snd

/-- The name of an operator in query files. -/
def name : ComparisonOperator → String
  | equals => "equals"
  | notEquals => "not_equals"
  | lessThan => "less_than"
  | lessOrEqual => "less_than_or_equal_to"
  | greaterThan => "greater_than"
  | greaterOrEqual => "greater_than_or_equal_to"

/-- The symbol of an operator in predicate text. -/
def symbol : ComparisonOperator → String
  | equals => "=="
  | notEquals => "!="
  | lessThan => "<"
  | lessOrEqual => "<="
  | greaterThan => ">"
  | greaterOrEqual => ">="

/-- The operator with a symbol. -/
def ofSymbol? (symbol : String) : Option ComparisonOperator :=
  all.find? (·.symbol == symbol)

/-- The operator that means the same when the two sides change places. -/
def swap : ComparisonOperator → ComparisonOperator
  | lessThan => greaterThan
  | lessOrEqual => greaterOrEqual
  | greaterThan => lessThan
  | greaterOrEqual => lessOrEqual
  | other => other

/-- Whether an operator holds of two values in the given order. -/
def holds : ComparisonOperator → Ordering → Bool
  | equals, order => order == .eq
  | notEquals, order => order != .eq
  | lessThan, order => order == .lt
  | lessOrEqual, order => order != .gt
  | greaterThan, order => order == .gt
  | greaterOrEqual, order => order != .lt

/-- Whether an operator asks which of two values is greater. -/
def isOrdering : ComparisonOperator → Bool
  | equals | notEquals => false
  | _ => true

end ComparisonOperator

/-- The type of a field, named as in SQL. -/
inductive ScalarType
  | boolean
  | smallint
  | integer
  | bigint
  | real
  | doublePrecision
  | numeric
  | text
  | characterVarying
  | date
  | time
  | timestamp
  | timestamptz
  | uuid
  | json
  | bytea
deriving DecidableEq, Repr

namespace ScalarType

/-- The name of a type in SQL, which is also its name in a catalog. -/
def sqlName : ScalarType → String
  | boolean => "boolean"
  | smallint => "smallint"
  | integer => "integer"
  | bigint => "bigint"
  | real => "real"
  | doublePrecision => "double precision"
  | numeric => "numeric"
  | text => "text"
  | characterVarying => "character varying"
  | date => "date"
  | time => "time"
  | timestamp => "timestamp"
  | timestamptz => "timestamptz"
  | uuid => "uuid"
  | json => "json"
  | bytea => "bytea"

/-- Every type. -/
def all : List ScalarType :=
  [boolean, smallint, integer, bigint, real, doublePrecision, numeric, text, characterVarying,
   date, time, timestamp, timestamptz, uuid, json, bytea]

/-- Every type with its name. -/
def names : List (String × ScalarType) := all.map fun t => (t.sqlName, t)

/-- Every type is found under its name. -/
theorem lookup_names (type : ScalarType) : names.lookup type.sqlName = some type := by
  cases type <;> decide

/-- Whether values of the type come in an order that queries may ask about. -/
def isOrdered : ScalarType → Bool
  | boolean | json | bytea => false
  | _ => true

/-- Whether an operator may compare fields of the type. -/
def supports (t : ScalarType) (operator : ComparisonOperator) : Bool :=
  !operator.isOrdering || t.isOrdered

/-- The operators for the type. -/
def operators (t : ScalarType) : List ComparisonOperator :=
  ComparisonOperator.all.filter t.supports

/-- Types that take integers only. -/
def isInteger : ScalarType → Bool
  | smallint | integer | bigint => true
  | _ => false

/-- Types that take integers and fractions. -/
def isFloat : ScalarType → Bool
  | real | doublePrecision | numeric => true
  | _ => false

/-- Types whose values are written as strings that the database has to convert. -/
def isStringEncoded : ScalarType → Bool
  | date | time | timestamp | timestamptz | uuid => true
  | _ => false

/-- Types whose values are strings. -/
def isText : ScalarType → Bool
  | text | characterVarying => true
  | _ => false

end ScalarType
end ObjectGraph
