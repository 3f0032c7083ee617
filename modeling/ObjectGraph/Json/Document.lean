/-
# JSON documents as far as they can be read

A text with a fault in it still has a beginning, and a reader who only wants to know about the
beginning may find something else to complain about first.  A document is therefore the tree of
the whole text up to where it breaks off: the arrays and objects that are open there end with
that break, and a value that is missing there is a fault node.

What is passed over can hold faults that only matter to those who read it: values that stand for
nothing, names that stand for nothing, and more nesting than can be read.  The text goes on
behind them.
-/
import ObjectGraph.Json.Lexeme

namespace ObjectGraph.Json

/-- What a value turns out to be. -/
inductive Found
  | null
  | boolean (b : Bool)
  | integer (i : Int)
  | float (x : Double)
  | string (s : String)
  | sequence
  | map
deriving DecidableEq

/-- The kind of a number. -/
def Found.ofNumber : Number → Found
  | .int i => integer i
  | .float x => float x

/-- How an array or an object ends: what is wrong there for those who read it, and for those who
pass over it. -/
structure Ending where
  read : Option SyntaxError := none
  passed : Option SyntaxError := none
deriving DecidableEq

/-- What a reader meets who expects an object to be a single name with its value. -/
inductive Sole
  | single
  /-- Something else stands where the name should. -/
  | nameless (found : Except SyntaxError Found)
  /-- Something follows the first value. -/
  | continued (e : SyntaxError)

/-- A value in a text, with the place where it begins. -/
inductive Document
  | null (start : Position)
  | boolean (start : Position) (b : Bool)
  | number (start : Position) (n : Number)
  | string (start : Position) (s : String)
  /-- An array; `deep` when it lies inside too many others to be read. -/
  | list (start : Position) (deep : Bool) (items : List Document) (ending : Ending)
  | record (start : Position) (deep : Bool) (members : List (String × Document)) (sole : Sole)
      (ending : Ending)
  /-- A numeral or a string that stands for no value; `quoted` for a string. -/
  | unreadable (start : Position) (quoted : Bool) (e : SyntaxError)
  /-- The place where the text breaks off; `begun` when that is inside a word or a numeral. -/
  | fault (start : Position) (begun : Bool) (b : Break)

namespace Document

instance : Inhabited Document := ⟨null ⟨1, 0⟩⟩

/-- The position at which a document begins. -/
def start : Document → Position
  | null p | boolean p _ | number p _ | string p _ | list p .. | record p .. | unreadable p ..
  | fault p .. => p

mutual

/-- The first fault of a document that is read in full. -/
def firstFault : Document → Option SyntaxError
  | list start deep items ending =>
    if deep then some ⟨.recursionLimit, ⟨start.line, start.column + 1⟩⟩
    else (itemsFault items).or ending.read
  | record start deep members _ ending =>
    if deep then some ⟨.recursionLimit, ⟨start.line, start.column + 1⟩⟩
    else (membersFault members).or ending.read
  | unreadable _ _ e => some e
  | fault _ _ b => some b.read
  | _ => none

/-- The first fault in the items of a list. -/
def itemsFault : List Document → Option SyntaxError
  | [] => none
  | item :: rest => (firstFault item).or (itemsFault rest)

/-- The first fault in the members of an object. -/
def membersFault : List (String × Document) → Option SyntaxError
  | [] => none
  | (_, value) :: rest => (firstFault value).or (membersFault rest)

end

/-- The fault of a document that is passed over.  Only the place where the text breaks off is
one, and every array or object that is open there ends with it. -/
def passingFault : Document → Option SyntaxError
  | list _ _ _ ending | record _ _ _ _ ending => ending.passed
  | fault _ _ b => some b.passed
  | _ => none

end Document

/-! ### From lexemes to documents -/

/-- The members of an object that is still open. -/
structure OpenRecord where
  start : Position
  /-- The members so far in reverse. -/
  members : List (String × Document) := []
  /-- The name of the member whose value comes next. -/
  pending : String := ""
  sole : Sole := .single
  /-- The fault of a name that cannot be read; whoever reads the object stops there. -/
  flaw : Option SyntaxError := none

/-- An array or object that is still open, the items of an array in reverse. -/
inductive Frame
  | list (start : Position) (items : List Document)
  | record (r : OpenRecord)

/-- What must come next. -/
inductive Expecting
  | value
  /-- The first item of an array, or its end. -/
  | firstItem
  /-- An item after a comma. -/
  | item
  | listCommaOrEnd
  /-- The first name of an object, or its end. -/
  | firstKey
  /-- A name after a comma. -/
  | key
  | colon
  | objectCommaOrEnd
  /-- Nothing: the document is complete. -/
  | nothing (document : Document)

/-- A text read: its document, and what follows it that should not. -/
structure Reading where
  document : Document
  trailing : Option SyntaxError

/-- How many arrays and objects may be open at once. -/
def depthLimit : Nat := 127

/-- Whether an array or object inside the given ones lies too deep. -/
def Frame.isDeep (outer : List Frame) : Bool :=
  !(outer.drop (depthLimit - 1)).isEmpty

/-- Close an array or object, properly or where the text breaks off. -/
def Frame.close (frame : Frame) (outer : List Frame) (b : Option Break) : Document :=
  let passed := b.map Break.passed
  match frame with
  | .list start items =>
    .list start (isDeep outer) items.reverse { read := b.map Break.read, passed }
  | .record r =>
    .record r.start (isDeep outer) r.members.reverse r.sole
      { read := r.flaw.or (b.map Break.read), passed }

/-- Put a value where the frame expects it.  Behind a name that cannot be read, values do not
matter. -/
def Frame.add (frame : Frame) (value : Document) : Frame :=
  match frame with
  | .list start items => .list start (value :: items)
  | .record r =>
    match r.flaw with
    | none => .record { r with members := (r.pending, value) :: r.members }
    | some _ => .record r

/-- Put a name where the frame expects it. -/
def Frame.name (frame : Frame) (name : String) : Frame :=
  match frame with
  | .list .. => frame
  | .record r => .record { r with pending := name }

/-- Put a name that cannot be read where the frame expects it. -/
def Frame.flawedName (frame : Frame) (e : SyntaxError) : Frame :=
  match frame with
  | .list .. => frame
  | .record r => .record { r with flaw := r.flaw.or (some e) }

/-- Note what a reader meets who expects a single member, unless that is settled. -/
def Frame.settle (frame : Frame) (sole : Sole) : Frame :=
  match frame with
  | .record { start, members, pending, sole := .single, flaw } =>
    .record { start, members, pending, sole, flaw }
  | frame => frame

/-- Note it for the innermost array or object. -/
def settleFirst (sole : Sole) : List Frame → List Frame
  | [] => []
  | frame :: outer => frame.settle sole :: outer

/-- What a frame expects after a value. -/
def Frame.expecting : Frame → Expecting
  | .list .. => .listCommaOrEnd
  | .record .. => .objectCommaOrEnd

/-- The document whose frames all end with a break; `inner` is the document inside them. -/
def abandonWith (b : Break) (inner : Document) : List Frame → Document
  | [] => inner
  | frame :: outer => abandonWith b ((frame.add inner).close outer (some b)) outer

/-- The document that breaks off between values. -/
def abandon (start : Position) (b : Break) : List Frame → Document
  | [] => .fault start false b
  | frame :: outer => abandonWith b (frame.close outer (some b)) outer

/-- Either go on with what is expected and the open frames, or stop with a document. -/
inductive Progress
  | on (expecting : Expecting) (frames : List Frame)
  | stop (document : Document)

/-- A value is complete. -/
def Progress.complete (value : Document) : List Frame → Progress
  | [] => .on (.nothing value) []
  | frame :: outer => .on frame.expecting (frame.add value :: outer)

/-- The innermost array or object is complete. -/
def Progress.leave (frames : List Frame) : Progress :=
  match frames with
  | [] => .on .value []
  | frame :: outer => .complete (frame.close outer none) outer

/-- The place at which a fault is reported that is noticed at the first byte of a lexeme. -/
def Located.place (l : Located) : Position :=
  match l.lexeme with
  | .stray c => l.start.enter c
  | _ => ⟨l.start.line, l.start.column + 1⟩

/-- The fault at a lexeme that does not fit. -/
def Located.misfit (l : Located) (fault : Fault) : SyntaxError := ⟨fault, l.place⟩

/-- What a lexeme turns out to be where a string is wanted. -/
def Located.found (l : Located) : Except SyntaxError Found :=
  match l.lexeme with
  | .null => .ok .null
  | .boolean b => .ok (.boolean b)
  | .number n => .ok (.ofNumber n)
  | .string s => .ok (.string s)
  | .openList => .ok .sequence
  | .openObject => .ok .map
  | .unreadable _ e => .error e
  | .broken _ b => .error b.read
  | .closeList | .closeObject | .comma | .colon | .stray _ => .error (l.misfit .expectedValue)

/-- Read a lexeme where a value must come. -/
def readValue (l : Located) (frames : List Frame) : Progress :=
  match l.lexeme with
  | .openList => .on .firstItem (.list l.start [] :: frames)
  | .openObject => .on .firstKey (.record { start := l.start } :: frames)
  | .null => .complete (.null l.start) frames
  | .boolean b => .complete (.boolean l.start b) frames
  | .number n => .complete (.number l.start n) frames
  | .string s => .complete (.string l.start s) frames
  | .unreadable quoted e => .complete (.unreadable l.start quoted e) frames
  | .broken quoted b => .stop (abandonWith b (.fault l.start (!quoted) b) frames)
  | .closeList | .closeObject | .comma | .colon | .stray _ =>
    let b := Break.same (l.misfit .expectedValue)
    .stop (abandonWith b (.fault l.start false b) frames)

/-- Read a lexeme where a name must come. -/
def readKey (l : Located) (frames : List Frame) : Progress :=
  match l.lexeme, frames with
  | .string s, frame :: outer => .on .colon (frame.name s :: outer)
  | .unreadable true e, frame :: outer => .on .colon (frame.flawedName e :: outer)
  | .broken true b, _ => .stop (abandon l.start b frames)
  | _, _ => .stop (abandon l.start (.same (l.misfit .keyMustBeString)) frames)

/-- Read the first name of an object, or its end. -/
def readFirstKey (l : Located) (frames : List Frame) : Progress :=
  match l.lexeme with
  | .string _ => readKey l frames
  | .closeObject => .leave (settleFirst (.nameless l.found) frames)
  | _ => readKey l (settleFirst (.nameless l.found) frames)

/-- Read one lexeme. -/
def readLexeme (expecting : Expecting) (frames : List Frame) (l : Located) : Progress :=
  match expecting with
  | .value => readValue l frames
  | .firstItem =>
    match l.lexeme with
    | .closeList => .leave frames
    | _ => readValue l frames
  | .item =>
    match l.lexeme with
    | .closeList =>
      .stop (abandon l.start ⟨l.misfit .trailingComma, l.misfit .expectedValue⟩ frames)
    | _ => readValue l frames
  | .listCommaOrEnd =>
    match l.lexeme with
    | .comma => .on .item frames
    | .closeList => .leave frames
    | _ => .stop (abandon l.start (.same (l.misfit .expectedListCommaOrEnd)) frames)
  | .firstKey => readFirstKey l frames
  | .key =>
    match l.lexeme with
    | .closeObject =>
      .stop (abandon l.start ⟨l.misfit .trailingComma, l.misfit .keyMustBeString⟩ frames)
    | _ => readKey l frames
  | .colon =>
    match l.lexeme with
    | .colon => .on .value frames
    | _ =>
      let b := Break.same (l.misfit .expectedColon)
      .stop (abandonWith b (.fault l.start false b) frames)
  | .objectCommaOrEnd =>
    let continued := settleFirst (.continued ⟨.expectedValue, l.start⟩) frames
    match l.lexeme with
    | .comma => .on .key continued
    | .closeObject => .leave frames
    | _ => .stop (abandon l.start (.same (l.misfit .expectedObjectCommaOrEnd)) continued)
  | .nothing document => .stop document

/-- The document of a text that ends at a place. -/
def finishDocument (expecting : Expecting) (frames : List Frame) (p : Position) : Document :=
  let inValue := Break.same ⟨.endInValue, p⟩
  let inObject := Break.same ⟨.endInObject, p⟩
  match expecting with
  | .value | .item => abandonWith inValue (.fault p false inValue) frames
  | .colon => abandonWith inObject (.fault p false inObject) frames
  | .firstItem | .listCommaOrEnd => abandon p (.same ⟨.endInList, p⟩) frames
  | .firstKey =>
    abandon p inObject (settleFirst (.nameless (.error ⟨.endInValue, p⟩)) frames)
  | .objectCommaOrEnd =>
    abandon p inObject (settleFirst (.continued ⟨.endInObject, p⟩) frames)
  | .key => abandon p ⟨⟨.endInValue, p⟩, ⟨.endInObject, p⟩⟩ frames
  | .nothing document => document

/-- Read lexemes up to the end of the document. -/
def readLexemes (expecting : Expecting) (frames : List Frame) (finish : Position) :
    List Located → Reading
  | [] => ⟨finishDocument expecting frames finish, none⟩
  | l :: rest =>
    match expecting with
    | .nothing document => ⟨document, some (l.misfit .trailingCharacters)⟩
    | _ =>
      match readLexeme expecting frames l with
      | .on expecting frames => readLexemes expecting frames finish rest
      | .stop document => ⟨document, none⟩

/-- Read a text. -/
def read (text : String) : Reading :=
  let (ls, finish) := lexemes text
  readLexemes .value [] finish ls

mutual

/-- The document of a value that was not read from a text. -/
def toDocument : Json → Document
  | null => .null ⟨1, 0⟩
  | boolean b => .boolean ⟨1, 0⟩ b
  | number n => .number ⟨1, 0⟩ n
  | string s => .string ⟨1, 0⟩ s
  | array items => .list ⟨1, 0⟩ false (itemsToDocuments items) {}
  | object members => .record ⟨1, 0⟩ false (membersToDocuments members) .single {}

/-- The items of a list as if they had been read. -/
def itemsToDocuments : List Json → List Document
  | [] => []
  | item :: rest => item.toDocument :: itemsToDocuments rest

/-- The members of an object as if they had been read. -/
def membersToDocuments : List (String × Json) → List (String × Document)
  | [] => []
  | (name, value) :: rest => (name, value.toDocument) :: membersToDocuments rest

end

mutual

/-- The value of a document without faults, a name given twice keeping its last value. -/
def Document.toJson : Document → Json
  | .boolean _ b => .boolean b
  | .number _ n => .number n
  | .string _ s => .string s
  | .list _ _ items _ => .array (itemsToJson items)
  | .record _ _ members _ _ => .object (Named.collapse (membersToJson members))
  | .null _ | .unreadable .. | .fault .. => .null

/-- The values of the items of a list. -/
def itemsToJson : List Document → List Json
  | [] => []
  | item :: rest => item.toJson :: itemsToJson rest

/-- The members of an object with their values. -/
def membersToJson : List (String × Document) → List (String × Json)
  | [] => []
  | (name, value) :: rest => (name, value.toJson) :: membersToJson rest

end

/-- The value a text holds. -/
def parse (text : String) : Except SyntaxError Json :=
  let reading := read text
  match reading.document.firstFault.or reading.trailing with
  | some e => .error e
  | none => .ok reading.document.toJson

end ObjectGraph.Json
