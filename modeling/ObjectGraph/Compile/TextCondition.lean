/-
# Conditions in text

Malloy and Cypher write conditions with the same structure in different words.  A condition
refers to the values it compares by names of the target language; a dialect says how each part
is written.
-/
import ObjectGraph.Compile.Error
import ObjectGraph.Predicate

namespace ObjectGraph.Compile

/-- A condition on values that have the names `σ`. -/
inductive TextCondition (σ : Type)
  | all (parts : List (TextCondition σ))
  | any (parts : List (TextCondition σ))
  | negation (part : TextCondition σ)
  | comparison (subject : σ) (operator : ComparisonOperator) (value : Literal)
  /-- The subject equals one of the values. -/
  | oneOf (subject : σ) (values : List Literal)
  /-- No value is one of no values. -/
  | never
  | isNull (subject : σ)
  | isNotNull (subject : σ)

/-- The words of a language for conditions. -/
structure Dialect where
  and : String
  or : String
  not : String
  isNull : String
  isNotNull : String
  operator : ComparisonOperator → String
  /-- The test whether a subject is one of several values, from their texts. -/
  oneOf : String → List String → String

/-- The parts with a word between each two. -/
def joined (word : String) (parts : List String) : String :=
  (" " ++ word ++ " ").intercalate parts

namespace TextCondition

variable {σ : Type}

/-- Whether a condition needs parentheses inside others. -/
def isCompound : TextCondition σ → Bool
  | all _ | any _ => true
  | _ => false

/-- The text of a condition, in parentheses if it has several parts. -/
def guarded (c : TextCondition σ) (text : String) : String :=
  if c.isCompound then "(" ++ text ++ ")" else text

mutual

/-- The text of a condition, given the text of a subject. -/
def text (dialect : Dialect) (name : σ → String) : TextCondition σ → String
  | all parts => if parts.isEmpty then "true" else joined dialect.and (partTexts dialect name parts)
  | any parts => if parts.isEmpty then "false" else joined dialect.or (partTexts dialect name parts)
  | negation part => dialect.not ++ " (" ++ part.text dialect name ++ ")"
  | comparison subject operator value =>
    name subject ++ " " ++ dialect.operator operator ++ " " ++ value.text
  | oneOf subject values => dialect.oneOf (name subject) (values.map Literal.text)
  | never => "false"
  | isNull subject => name subject ++ " " ++ dialect.isNull
  | isNotNull subject => name subject ++ " " ++ dialect.isNotNull

/-- The texts of the parts, in parentheses where they need them. -/
def partTexts (dialect : Dialect) (name : σ → String) : List (TextCondition σ) → List String
  | [] => []
  | part :: rest => part.guarded (part.text dialect name) :: partTexts dialect name rest

end

end TextCondition
end ObjectGraph.Compile
