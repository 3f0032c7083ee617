/-
# Reading typed data out of documents

Members are read in the order in which they stand, and the first problem found is the answer;
members that are missing are noticed after all others were read.  Members that nobody asks for
are passed over.  A record may also be given as the list of its fields in the order of their
declaration, a tagged record as such a list after its tag, and a plain choice as an object with
the choice as its one name and `null` as the value.

Whether a document still stands in its text, was handed over as a value, or was set aside until
the tag of the record around it was known decides a few corners: which numbers may stand for a
tag, and what is said of a list that is too long.
-/
import ObjectGraph.Double.Notation
import ObjectGraph.Json.Document
import ObjectGraph.Text.Quoted

namespace ObjectGraph.Json

/-- Where a document is read from. -/
inductive Origin
  /-- Straight from its text. -/
  | text
  /-- From a value. -/
  | value
  /-- From the contents of a tagged record, which are set aside until the tag is known. -/
  | setAside
deriving DecidableEq

/-- How a value is spoken of that is not the expected one. -/
def Found.text : Found → String
  | null => "null"
  | boolean b => "boolean `" ++ (if b then "true" else "false") ++ "`"
  | integer i => "integer `" ++ toString i ++ "`"
  | float x => "floating point `" ++ x.render Double.jsonStyle ++ "`"
  | string s => "string " ++ Text.reveal s
  | sequence => "sequence"
  | map => "map"

/-- How a document fails to be what is asked for. -/
inductive Mismatch
  | missingField (name : String)
  | duplicateField (name : String)
  | unknownVariant (name : String) (choices : List String)
  | invalidType (found : Found) (expected : String)
  | invalidValue (found : Found) (expected : String)
  | invalidLength (length : Nat) (expected : String)
  | noVariant (type : String)
  /-- A value of the right type that its own reader refuses. -/
  | refused (reason : String)
deriving DecidableEq

/-- A name between backquotes. -/
private def backquoted (s : String) : String := "`" ++ s ++ "`"

/-- The choices that an unknown one could have been. -/
def choicesText : List String → String
  | [] => "there are no variants"
  | [a] => "expected " ++ backquoted a
  | [a, b] => "expected " ++ backquoted a ++ " or " ++ backquoted b
  | choices => "expected one of " ++ ", ".intercalate (choices.map backquoted)

/-- What is said of a mismatch. -/
def Mismatch.message : Mismatch → String
  | missingField name => "missing field " ++ backquoted name
  | duplicateField name => "duplicate field " ++ backquoted name
  | unknownVariant name choices =>
    "unknown variant " ++ backquoted name ++ ", " ++ choicesText choices
  | invalidType found expected => "invalid type: " ++ found.text ++ ", expected " ++ expected
  | invalidValue found expected => "invalid value: " ++ found.text ++ ", expected " ++ expected
  | invalidLength length expected =>
    "invalid length " ++ toString length ++ ", expected " ++ expected
  | noVariant type => "data did not match any variant of untagged enum " ++ type
  | refused reason => reason

/-- Why nothing could be read: the text is no JSON, or it is not what is asked for. -/
inductive DecodeError
  | malformed (e : SyntaxError)
  | mismatch (m : Mismatch)
deriving DecidableEq

/-- What is said of an error. -/
def DecodeError.message : DecodeError → String
  | malformed e => e.message
  | mismatch m => m.message

/-- What is read of a document, or why it cannot be read. -/
abbrev Decoded (α : Type) := Except DecodeError α

/-- Refuse a document for a mismatch. -/
def refuse {α : Type} (m : Mismatch) : Decoded α := .error (.mismatch m)

/-- Go on unless there is a fault. -/
def unlessFault : Option SyntaxError → Decoded Unit
  | some e => .error (.malformed e)
  | none => .ok ()

/-- Enter an array or object unless it lies too deep. -/
def enter (start : Position) (deep : Bool) : Decoded Unit :=
  if deep then .error (.malformed ⟨.recursionLimit, ⟨start.line, start.column + 1⟩⟩) else .ok ()

namespace Document

/-- The kind of value that a document is, if the document itself can be read. -/
def found : Document → Decoded Found
  | null _ => .ok .null
  | boolean _ b => .ok (.boolean b)
  | number _ n => .ok (.ofNumber n)
  | string _ s => .ok (.string s)
  | list .. => .ok .sequence
  | record .. => .ok .map
  | unreadable _ _ e => .error (.malformed e)
  | fault _ _ b => .error (.malformed b.read)

/-- The answer for a document that is something else than expected. -/
def wrongType {α : Type} (doc : Document) (expected : String) : Decoded α := do
  refuse (.invalidType (← doc.found) expected)

end Document

/-! ### Simple values -/

/-- A string is read from a string only. -/
def decodeString : Document → Decoded String
  | .string _ s => .ok s
  | doc => doc.wrongType "a string"

/-- An integer within bounds. -/
def decodeInteger (low high : Int) (expected : String) : Document → Decoded Int
  | .number _ (.int i) =>
    if low ≤ i ∧ i < high then .ok i else refuse (.invalidValue (.integer i) expected)
  | doc => doc.wrongType expected

/-- An integer that fits into 32 bits without a sign. -/
def decodeUInt32 (doc : Document) : Decoded UInt32 :=
  (decodeInteger 0 UInt32.size "u32" doc).map fun i => UInt32.ofNat i.toNat

/-- An integer that fits into 64 bits without a sign. -/
def decodeUInt64 (doc : Document) : Decoded UInt64 :=
  (decodeInteger 0 UInt64.size "u64" doc).map fun i => UInt64.ofNat i.toNat

/-- An integer that fits into 64 bits with a sign. -/
def decodeInt64 (doc : Document) : Decoded Int64 :=
  (decodeInteger Int64.minValue.toInt (Int64.maxValue.toInt + 1) "i64" doc).map Int64.ofInt

/-- A value that may be `null`. -/
def decodeOption {α : Type} (decode : Document → Decoded α) : Document → Decoded (Option α)
  | .null _ => .ok none
  | doc => (decode doc).map some

/-- A list whose items are read one by one. -/
def decodeList {α : Type} (decode : Document → Decoded α) : Document → Decoded (List α)
  | .list start deep items ending => do
    enter start deep
    let values ← items.mapM decode
    unlessFault ending.read
    return values
  | doc => doc.wrongType "a sequence"

/-- The members of an object in order; a name may come more than once. -/
def decodeMap {α : Type} (decode : Document → Decoded α) :
    Document → Decoded (List (String × α))
  | .record start deep members _ ending => do
    enter start deep
    let values ← members.mapM fun (name, doc) => (decode doc).map (name, ·)
    unlessFault ending.read
    return values
  | doc => doc.wrongType "a map"

/-! ### Choices -/

/-- The choice of a name. -/
def choose {α : Type} (choices : List (String × α)) (name : String) : Decoded α :=
  match choices.lookup name with
  | some choice => .ok choice
  | none => refuse (.unknownVariant name (choices.map Prod.fst))

/-- The answer for a document that is neither a string nor an object.  In a text it is refused
without being read. -/
private def notAChoice {α : Type} (origin : Origin) (doc : Document) : Decoded α :=
  match origin, doc with
  | .text, .unreadable _ true e => .error (.malformed e)
  | .text, .fault _ false b => .error (.malformed b.read)
  | .text, doc => .error (.malformed ⟨.expectedValue, ⟨doc.start.line, doc.start.column + 1⟩⟩)
  | _, doc => doc.wrongType "string or map"

/-- The value of a choice that is given as an object. -/
private def decodeUnit (origin : Origin) : Document → Decoded Unit
  | .null _ => .ok ()
  | doc =>
    match origin, doc with
    | .setAside, .record _ _ [] _ _ => .ok ()
    | _, doc => doc.wrongType "unit"

/-- The name of a choice that is given as an object in a text. -/
private def soleName (sole : Sole) : Decoded Unit :=
  match sole with
  | .nameless (.error e) => .error (.malformed e)
  | .nameless (.ok found) => refuse (.invalidType found "variant identifier")
  | _ => .ok ()

/-- What follows the value of a choice that is given as an object in a text. -/
private def afterSole (sole : Sole) : Decoded Unit :=
  match sole with
  | .continued e => .error (.malformed e)
  | _ => .ok ()

/-- One of several named choices. -/
def decodeChoice {α : Type} (origin : Origin) (choices : List (String × α)) :
    Document → Decoded α
  | .string _ s => choose choices s
  | .record start deep members sole _ => do
    enter start deep
    if origin = .text then soleName sole
    match members with
    | [] => refuse (.invalidValue .map "map with a single key")
    | (name, value) :: rest =>
      if origin ≠ .text ∧ rest ≠ [] then refuse (.invalidValue .map "map with a single key")
      let choice ← choose choices name
      decodeUnit origin value
      if origin = .text then afterSole sole
      return choice
  | doc => notAChoice origin doc

/-! ### Records -/

/-- A record: what it is called, and the names of its fields in the order of their
declaration. -/
structure Shape where
  expected : String
  names : List String

/-- A number of elements. -/
private def countText (n : Nat) : String :=
  toString n ++ (if n = 1 then " element" else " elements")

/-- What is wrong when a field is missing; in a list the place of the field counts. -/
def Shape.missing (shape : Shape) (positional : Bool) (name : String) : Mismatch :=
  if positional then
    .invalidLength (shape.names.idxOf name)
      (shape.expected ++ " with " ++ countText shape.names.length)
  else .missingField name

/-- Where a document is reported that should not be there: at its first byte, or where the text
ends. -/
def Document.place : Document → Position
  | .fault start _ b =>
    if b.read.position = start then start else ⟨start.line, start.column + 1⟩
  | doc => ⟨doc.start.line, doc.start.column + 1⟩

/-- After the fields of a record given as a list: nothing may follow them. -/
def Shape.afterItems (shape : Shape) (origin : Origin) (items : List Document)
    (ending : Option SyntaxError) : Decoded Unit :=
  let count := shape.names.length
  if items.length < count then unlessFault ending
  else
    match items.drop count, origin with
    | [], _ =>
      unlessFault (ending.map fun e =>
        if e.fault = .expectedListCommaOrEnd then { e with fault := .trailingCharacters } else e)
    | next :: _, .text => .error (.malformed ⟨.trailingCharacters, next.place⟩)
    | _ :: _, .value => refuse (.invalidLength items.length "fewer elements in array")
    | _ :: _, .setAside => refuse (.invalidLength items.length (countText count ++ " in sequence"))

/-- The fields that were read, under their names, and whether they came as a list. -/
structure Fields (π : Type) where
  shape : Shape
  positional : Bool
  parts : List (String × π)

/-- A field that must be there; `select` picks its value out of what was read. -/
def Fields.require {π α : Type} (fields : Fields π) (name : String) (select : π → Option α) :
    Decoded α :=
  match (fields.parts.lookup name).bind select with
  | some value => .ok value
  | none => refuse (fields.shape.missing fields.positional name)

/-- A field with a value to stand in for it. -/
def Fields.optional {π α : Type} (fields : Fields π) (name : String) (select : π → Option α)
    (default : α) : α :=
  ((fields.parts.lookup name).bind select).getD default

/-- Read members in order.  `seen` are the names already read. -/
def decodeMembers {π : Type} (part : String → Option (Document → Decoded π)) :
    List String → List (String × Document) → Decoded (List (String × π))
  | _, [] => .ok []
  | seen, (name, doc) :: rest =>
    match part name with
    | none => do
      unlessFault doc.passingFault
      decodeMembers part seen rest
    | some decode => do
      if name ∈ seen then refuse (.duplicateField name)
      let value ← decode doc
      let more ← decodeMembers part (name :: seen) rest
      return (name, value) :: more

/-- Read a record, given as an object or as a list. -/
def decodeRecord {π : Type} (shape : Shape) (origin : Origin)
    (part : String → Option (Document → Decoded π)) : Document → Decoded (Fields π)
  | .record start deep members _ ending => do
    enter start deep
    let parts ← decodeMembers part [] members
    unlessFault ending.read
    return ⟨shape, false, parts⟩
  | .list start deep items ending => do
    enter start deep
    let parts ← decodeMembers part [] (shape.names.zip items)
    shape.afterItems origin items ending.read
    return ⟨shape, true, parts⟩
  | doc => doc.wrongType shape.expected

/-! ### Tagged records -/

/-- The name of the member that tells the variants of a tagged record apart. -/
def tagName : String := "type"

/-- Read a tag.  Set aside, it may also be the number of its variant. -/
def decodeTag {τ : Type} (origin : Origin) (variants : List (String × τ)) :
    Document → Decoded τ
  | .string _ s => choose variants s
  | .number start (.int i) =>
    if origin = .setAside ∧ 0 ≤ i then
      match variants[i.toNat]? with
      | some (_, variant) => .ok variant
      | none =>
        refuse (.invalidValue (.integer i)
          ("variant index 0 <= i < " ++ toString variants.length))
    else (Document.number start (.int i)).wrongType "variant identifier"
  | doc => doc.wrongType "variant identifier"

/-- Look through the members of a tagged record for its tag; everything else is read as it
stands and set aside. -/
def findTag {τ : Type} (origin : Origin) (variants : List (String × τ)) :
    Option τ → List (String × Document) → Decoded (Option τ)
  | tag, [] => .ok tag
  | tag, (name, doc) :: rest =>
    if name = tagName then do
      if tag.isSome then refuse (.duplicateField tagName)
      let variant ← decodeTag origin variants doc
      findTag origin variants (some variant) rest
    else do
      unlessFault doc.firstFault
      findTag origin variants tag rest

/-- The variant of a tagged record that is given as an object. -/
def variantOfMembers {τ : Type} (origin : Origin) (variants : List (String × τ))
    (members : List (String × Document)) (ending : Ending) : Decoded τ := do
  let tag ← findTag origin variants none members
  unlessFault ending.read
  match tag with
  | some variant => .ok variant
  | none => refuse (.missingField tagName)

/-- The variant of a tagged record that is given as a list. -/
def variantOfItems {τ : Type} (origin : Origin) (variants : List (String × τ))
    (tag : Document) (items : List Document) (ending : Ending) : Decoded τ := do
  let variant ← decodeTag origin variants tag
  unlessFault (Document.itemsFault items)
  unlessFault ending.read
  return variant

/-- The fields of a variant without its tag. -/
def untagged (members : List (String × Document)) : List (String × Document) :=
  members.filter fun (name, _) => name ≠ tagName

/-- Read a tagged record whose variants hold no tagged record of the same kind. -/
def decodeTagged {τ π : Type} (expected : String) (origin : Origin)
    (variants : List (String × τ)) (shape : τ → Shape)
    (part : τ → String → Option (Document → Decoded π)) :
    Document → Decoded (τ × Fields π)
  | .record start deep members _ ending => do
    enter start deep
    let variant ← variantOfMembers origin variants members ending
    let parts ← decodeMembers (part variant) [] (untagged members)
    return (variant, ⟨shape variant, false, parts⟩)
  | .list start deep [] ending => do
    enter start deep
    unlessFault ending.read
    refuse (.missingField tagName)
  | .list start deep (tag :: items) ending => do
    enter start deep
    let variant ← variantOfItems origin variants tag items ending
    let shape := shape variant
    let parts ← decodeMembers (part variant) [] (shape.names.zip items)
    shape.afterItems .setAside items none
    return (variant, ⟨shape, true, parts⟩)
  | doc => doc.wrongType ("internally tagged enum " ++ expected)

/-- Read a whole text: the document first, then that nothing follows it. -/
def decodeText {α : Type} (decode : Document → Decoded α) (text : String) : Decoded α := do
  let reading := read text
  let value ← decode reading.document
  unlessFault reading.trailing
  return value

end ObjectGraph.Json
