/-
# Predicates in JSON

Query files hold predicates as trees of tagged records, or as their text.
-/
import ObjectGraph.Json.Decode
import ObjectGraph.Predicate.Parser

namespace ObjectGraph

open Json (Decoded Document Origin Shape Fields refuse enter unlessFault decodeString
  decodeChoice)

/-! ### Writing -/

/-- The JSON value of a literal.  There is none for infinity. -/
def Literal.toJson : Literal → Json
  | null => .null
  | boolean b => .boolean b
  | integer i => .int i.toInt
  | float x => if x.isFinite then .number (.float x) else .null
  | string s => .string s

namespace Predicate

mutual

/-- A predicate as a record with its kind in front. -/
def toJson : Predicate → Json
  | all parts => .object [("type", .string "and"), ("expressions", .array (partsToJson parts))]
  | any parts => .object [("type", .string "or"), ("expressions", .array (partsToJson parts))]
  | negation p => .object [("type", .string "not"), ("expression", p.toJson)]
  | comparison field operator value =>
    .object [("type", .string "binary_comparison"), ("field", .string field),
      ("operator", .string operator.name), ("value", value.toJson)]
  | oneOf field values =>
    .object [("type", .string "in"), ("field", .string field),
      ("values", .array (values.map Literal.toJson))]
  | isNull field => .object [("type", .string "is_null"), ("field", .string field)]

/-- The predicates, one by one. -/
def partsToJson : List Predicate → List Json
  | [] => []
  | p :: rest => p.toJson :: partsToJson rest

end

/-! ### Reading -/

/-- The kinds of predicates. -/
inductive Tag
  | all
  | any
  | negation
  | comparison
  | oneOf
  | isNull

/-- Every kind of predicate with its name in query files. -/
def variants : List (String × Tag) :=
  [("and", .all), ("or", .any), ("not", .negation), ("binary_comparison", .comparison),
   ("in", .oneOf), ("is_null", .isNull)]

/-- What the members of a predicate may hold. -/
inductive Part
  | predicates (ps : List Predicate)
  | predicate (p : Predicate)
  | field (s : String)
  | operator (op : ComparisonOperator)
  | value (l : Literal)
  | values (ls : List Literal)

/-- What a member that holds no predicate is to be read as. -/
inductive SimpleKind
  | field
  | operator
  | value
  | values

/-- What a member is to be read as. -/
inductive PartKind
  | simple (kind : SimpleKind)
  | predicates
  | predicate

/-- The fields of a kind of predicates. -/
def Tag.fields : Tag → List (String × PartKind)
  | all | any => [("expressions", .predicates)]
  | negation => [("expression", .predicate)]
  | comparison =>
    [("field", .simple .field), ("operator", .simple .operator), ("value", .simple .value)]
  | oneOf => [("field", .simple .field), ("values", .simple .values)]
  | isNull => [("field", .simple .field)]

/-- The members that a predicate of a kind may have. -/
def Tag.shape (tag : Tag) : Shape where
  expected := "struct variant Expression::" ++
    match tag with
    | all => "And"
    | any => "Or"
    | negation => "Not"
    | comparison => "BinaryComparison"
    | oneOf => "In"
    | isNull => "IsNull"
  names := tag.fields.map Prod.fst

/-- Integers beyond 64 bits are read as doubles. -/
def decodeLiteral (doc : Document) : Decoded Literal := do
  unlessFault doc.firstFault
  match doc with
  | .null _ => return .null
  | .boolean _ b => return .boolean b
  | .number _ n =>
    match n.int64? with
    | some i => return .integer i
    | none => return .float n.toDouble
  | .string _ s => return .string s
  | _ => refuse (.noVariant "Literal")

/-- Read a part that holds no predicate. -/
def decodeSimple (kind : SimpleKind) (doc : Document) : Decoded Part :=
  match kind with
  | .field => (decodeString doc).map .field
  | .operator => (decodeChoice .setAside ComparisonOperator.names doc).map .operator
  | .value => (decodeLiteral doc).map .value
  | .values => (Json.decodeList decodeLiteral doc).map .values

/-- Put a predicate together from its parts. -/
def assemble (tag : Tag) (fields : Fields Part) : Decoded Predicate := do
  let field := fun | Part.field s => some s | _ => none
  let predicates := fun | Part.predicates ps => some ps | _ => none
  match tag with
  | .all => return .all (← fields.require "expressions" predicates)
  | .any => return .any (← fields.require "expressions" predicates)
  | .negation =>
    return .negation (← fields.require "expression" fun | .predicate p => some p | _ => none)
  | .comparison =>
    let name ← fields.require "field" field
    let operator ← fields.require "operator" fun | .operator op => some op | _ => none
    let value ← fields.require "value" fun | .value l => some l | _ => none
    return .comparison name operator value
  | .oneOf =>
    let name ← fields.require "field" field
    let values ← fields.require "values" fun | .values ls => some ls | _ => none
    return .oneOf name values
  | .isNull => return .isNull (← fields.require "field" field)

mutual

/-- Read a tree. -/
def decode (origin : Origin) : Document → Decoded Predicate
  | .record start deep members _ ending => do
    enter start deep
    let tag ← Json.variantOfMembers origin variants members ending
    let parts ← decodeParts tag [] members
    assemble tag ⟨tag.shape, false, parts⟩
  | .list start deep [] ending => do
    enter start deep
    unlessFault ending.read
    refuse (.missingField Json.tagName)
  | .list start deep (first :: items) ending => do
    enter start deep
    let tag ← Json.variantOfItems origin variants first items ending
    let parts ← decodePositions tag.fields items
    let predicate ← assemble tag ⟨tag.shape, true, parts⟩
    tag.shape.afterItems .setAside items none
    return predicate
  | doc => doc.wrongType "internally tagged enum Expression"

/-- Read a list of trees. -/
def decodePredicates : Document → Decoded (List Predicate)
  | .list _ _ items _ => decodeItems items
  | doc => doc.wrongType "a sequence"

/-- The predicates of a list, one by one. -/
def decodeItems : List Document → Decoded (List Predicate)
  | [] => return []
  | item :: rest => return (← decode .setAside item) :: (← decodeItems rest)

/-- The members of a record that are known, none of which may come twice. -/
def decodeParts (tag : Tag) (seen : List String) :
    List (String × Document) → Decoded (List (String × Part))
  | [] => return []
  | (name, doc) :: rest =>
    match tag.fields.lookup name with
    | none => decodeParts tag seen rest
    | some kind => do
      if name ∈ seen then refuse (.duplicateField name)
      let part ←
        match kind with
        | .predicates => (decodePredicates doc).map Part.predicates
        | .predicate => (decode .setAside doc).map .predicate
        | .simple kind => decodeSimple kind doc
      return (name, part) :: (← decodeParts tag (name :: seen) rest)

/-- The items of a list that stands for a record, in the order of its members. -/
def decodePositions (fields : List (String × PartKind)) :
    List Document → Decoded (List (String × Part))
  | [] => return []
  | item :: rest =>
    match fields with
    | [] => return []
    | (name, kind) :: fields => do
      let part ←
        match kind with
        | .predicates => (decodePredicates item).map Part.predicates
        | .predicate => (decode .setAside item).map .predicate
        | .simple kind => decodeSimple kind item
      return (name, part) :: (← decodePositions fields rest)

end

/-- The predicate a value stands for. -/
def ofJson (value : Json) : Decoded Predicate :=
  decode .value value.toDocument

/-- Read a predicate that may be given as text or as a tree. -/
def decodeInput : Document → Decoded Predicate
  | .string _ s =>
    match parse s with
    | .ok p => .ok p
    | .error e => refuse (.refused e.message)
  | doc => do
    unlessFault doc.firstFault
    match decode .setAside doc with
    | .ok p => .ok p
    | .error _ => refuse (.noVariant "PredicateInput")

end Predicate
end ObjectGraph
