/-
# Checking objects against their type

An object fits its type when no field that must hold a value is missing or null and every field
that is there holds a value of its kind.  Keys that name no field do not matter.
-/
import ObjectGraph.Catalog
import ObjectGraph.Json

namespace ObjectGraph

/-- Why an object does not fit its type. -/
inductive ValidationError
  | missingField (name : String)
  | unexpectedNull (name : String)
  | wrongType (field : String) (expected : ScalarType) (found : String)
deriving DecidableEq

/-- What is said of an object that does not fit its type. -/
def ValidationError.message : ValidationError → String
  | missingField name => "required field '" ++ name ++ "' is missing"
  | unexpectedNull name => "field '" ++ name ++ "' is not nullable but holds null"
  | wrongType field expected found =>
    "field '" ++ field ++ "' should hold a " ++ expected.sqlName ++ " value, found " ++ found

/-- Whether a value that is not null is of the kind a type asks for. -/
def ScalarType.fits (t : ScalarType) : Json → Bool
  | .boolean _ => t == .boolean || t == .json
  | .number (.int _) => t.isInteger || t.isFloat || t == .json
  | .number (.float _) => t.isFloat || t == .json
  | .string _ => t.isText || t.isStringEncoded || t == .bytea || t == .json
  | _ => t == .json

/-- What is wrong with one field, given its value. -/
def Field.problem? (field : Field) (name : String) : Option Json → Option ValidationError
  | none => if field.nullable then none else some (.missingField name)
  | some .null => if field.nullable then none else some (.unexpectedNull name)
  | some value =>
    if field.type.fits value then none else some (.wrongType name field.type value.kind)

namespace ObjectType

/-- The value an object holds in a field; the identity may be stored as `:id`. -/
def valueOf (type : ObjectType) (object : List (String × Json)) (name : String) :
    Option Json :=
  if name = type.idField then (object.lookup idKey).or (object.lookup name)
  else object.lookup name

/-- The first problem of an object, in the order of the fields. -/
def problem? (type : ObjectType) (object : List (String × Json)) : Option ValidationError :=
  type.fields.entries.findSome? fun (name, field) =>
    field.problem? name (type.valueOf object name)

/-- Check an object. -/
def validate (type : ObjectType) (object : List (String × Json)) :
    Except ValidationError Unit :=
  match type.problem? object with
  | some e => .error e
  | none => .ok ()

theorem problem?_of_validate {type : ObjectType} {object : List (String × Json)}
    (h : type.validate object = .ok ()) : type.problem? object = none := by
  unfold validate at h
  split at h
  · cases h
  · assumption

end ObjectType
end ObjectGraph
