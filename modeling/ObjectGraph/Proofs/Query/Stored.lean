/-
# Queries that are stored as JSON

A query whose doubles are finite is the one that is read from the value it is written as.  What
is left out of the value, absent identities and empty lists of operations, is what the reader
fills in.
-/
import ObjectGraph.Proofs.Predicate.Stored
import ObjectGraph.Query.Format

namespace ObjectGraph

open Json (Document Decoded Origin Encodes HoldsItems HoldsMembers tagName)
open Json.Document (Holds)

variable {doc : Document} {origin : Origin}

lemma Direction.lookup_directions (direction : Direction) :
    directions.lookup direction.name = some direction := by
  cases direction <;> rfl

/-! ### Sources -/

/-- How a member of a source is read. -/
def Source.part (name : String) : Option (Document → Decoded SourcePart) :=
  if name = "objectType" then some fun doc => (Json.decodeString doc).map .objectType
  else if name = "ids" then
    some fun doc => (Json.decodeOption (Json.decodeList Json.decodeInt64) doc).map .ids
  else none

lemma Source.decode_objectType {s : String} (h : doc.Holds (.string s)) :
    (Json.decodeString doc).map SourcePart.objectType = .ok (.objectType s) := by
  rw [Json.decodeString_of_holds h]
  rfl

lemma Source.decode_ids {ids : List Int64}
    (h : doc.Holds (.array (ids.map fun id => .int id.toInt))) :
    (Json.decodeOption (Json.decodeList Json.decodeInt64) doc).map SourcePart.ids =
      .ok (.ids (some ids)) := by
  have hids := Json.decodeList_of_holds h fun _ _ => Json.decodeInt64_of_holds
  rw [Json.decodeOption_of_holds h (by simp) hids]
  rfl

/-- A source is read with its identities, or without them if no member holds them. -/
lemma decodeSource_of_holds {source : Source} (h : doc.Holds source.toJson) :
    decodeSource origin doc = .ok source := by
  have hread {ms parts} (hparts : Encodes Source.part ms parts)
      (hs : (Named.keys ms).Sublist ["objectType", "ids"])
      (hd : doc.Holds (.object ((tagName, .string "collection") :: ms))) :
      Json.decodeTagged "Source" origin [("collection", ())] (fun _ =>
          { expected := "struct variant Source::Collection", names := ["objectType", "ids"] })
        (fun _ => Source.part) doc = .ok ((), ⟨_, false, parts⟩) :=
    hparts.decodeTagged _ (fun _ => Source.part) rfl rfl hs (by decide) hd
  obtain ⟨objectType, ids⟩ := source
  cases ids with
  | none =>
    have hfields := hread (.single rfl Source.decode_objectType)
      (.cons_cons _ (List.nil_sublist _)) h
    exact (congrArg (· >>= _) hfields).trans rfl
  | some ids =>
    have hfields := hread (.cons rfl Source.decode_objectType (.single rfl Source.decode_ids))
      (.refl _) h
    exact (congrArg (· >>= _) hfields).trans rfl

namespace Operation

/-! ### Members -/

section Members

variable {tag : Tag} {fields : List (String × PartKind)} {name : String}
  {docs : List (String × Document)} {ms : List (String × Json)} {parts : List (String × Part)}

/-- How a member of an operation or a query is read. -/
def part (origin : Origin) (fields : List (String × PartKind)) (name : String) :
    Option (Document → Decoded Part) :=
  (fields.lookup name).map fun
    | .operations => fun doc => (decodeOperations origin doc).map .operations
    | .queries => fun doc => (decodeQueries doc).map .queries
    | .simple kind => decodeSimple origin kind

lemma decodeParts_eq {seen : List String} :
    decodeParts origin fields seen docs = Json.decodeMembers (part origin fields) seen docs := by
  induction docs generalizing seen with
  | nil => rfl
  | cons member rest ih =>
    obtain ⟨name, doc⟩ := member
    cases hlookup : fields.lookup name with
    | none => simp [decodeParts, Json.decodeMembers, part, hlookup, ih]
    | some kind => cases kind <;> simp [decodeParts, Json.decodeMembers, part, hlookup, ih]

lemma part_tagName : part origin tag.fields tagName = none := by
  cases tag <;> rfl

lemma nodup_fields : (tag.fields.map Prod.fst).Nodup := by
  cases tag <;> decide

/-- An operation that is held is put together from the parts that its members are read as. -/
lemma decode_of_encodes (tag : Tag) (parts : List (String × Part))
    (h : Encodes (part .setAside tag.fields) ms parts)
    (hv : variants.lookup name = some tag)
    (hs : (Named.keys ms).Sublist (tag.fields.map Prod.fst))
    (hd : doc.Holds (.object ((tagName, .string name) :: ms))) :
    decode origin doc = assemble tag ⟨tag.shape, false, parts⟩ := by
  cases hd with
  | object hd =>
    obtain ⟨hvariant, hparts⟩ :=
      h.afterTag origin hv part_tagName hs nodup_fields hd
    simp [decode, Json.enter, hvariant, decodeParts_eq, hparts, bind, Except.bind]

/-- So is a query. -/
lemma decodeQuery_of_encodes (h : Encodes (part origin queryFields) ms parts)
    (hs : (Named.keys ms).Sublist (queryFields.map Prod.fst))
    (hd : doc.Holds (.object ms)) :
    decodeQuery origin doc = assembleQuery ⟨queryShape, false, parts⟩ := by
  cases hd with
  | object hd =>
    have hmembers := h.decodeMembers_of_sublist hs (by decide) hd
    simp [decodeQuery, Json.enter, decodeParts_eq, hmembers, Json.unlessFault, bind, Except.bind]

end Members

/-! ### Simple parts -/

section Simple

variable {texts : List String} {predicate : Predicate} {number : UInt32} {text : String}
  {direction : Direction} {source : Source}

lemma decodeStrings_of_holds (h : doc.Holds (.array (texts.map .string))) :
    decodeSimple origin .strings doc = .ok (.strings texts) := by
  rw [decodeSimple, Json.decodeList_of_holds h fun _ _ => Json.decodeString_of_holds]
  rfl

lemma decodePredicate_of_holds (hf : ∀ literal ∈ predicate.literals, literal.Finite)
    (h : doc.Holds predicate.toJson) :
    decodeSimple origin .predicate doc = .ok (.predicate predicate) := by
  rw [decodeSimple, Predicate.decodeInput_of_holds hf h]
  rfl

lemma decodeNumber_of_holds (h : doc.Holds (.int number.toNat)) :
    decodeSimple origin .number doc = .ok (.number number) := by
  rw [decodeSimple, Json.decodeUInt32_of_holds h]
  rfl

lemma decodeText_of_holds (h : doc.Holds (.string text)) :
    decodeSimple origin .text doc = .ok (.text text) := by
  rw [decodeSimple, Json.decodeString_of_holds h]
  rfl

lemma decodeDirection_of_holds (h : doc.Holds (.string direction.name)) :
    decodeSimple origin .direction doc = .ok (.direction direction) := by
  rw [decodeSimple, Json.decodeChoice_of_holds h direction.lookup_directions]
  rfl

lemma decodeSourcePart_of_holds (h : doc.Holds source.toJson) :
    decodeSimple origin .source doc = .ok (.source source) := by
  rw [decodeSimple, decodeSource_of_holds h]
  rfl

end Simple

/-! ### Operations that may be left out -/

/-- What a list of operations is read as: nothing, if it is empty. -/
def operationsPart : List Operation → List (String × Part)
  | [] => []
  | operations => [("operations", .operations operations)]

section Nested

variable {fields : List (String × PartKind)} {operations : List Operation}

lemma encodes_operationsMember (hfields : fields.lookup "operations" = some .operations)
    (hd : ∀ {docs}, HoldsItems docs (operationsToJson operations) →
      decodeOperationItems origin docs = .ok operations) :
    Encodes (part origin fields) (operationsMember (operationsToJson operations))
      (operationsPart operations) := by
  cases operations with
  | nil => exact .nil
  | cons operation rest =>
    refine .single (by rw [part, hfields]; rfl) fun h => ?_
    cases h with
    | array h =>
      simp [decodeOperations, Json.enter, hd h, Json.unlessFault, Except.map, bind, Except.bind,
        pure, Except.pure]

lemma keys_operationsMember (docs : List Json) :
    (Named.keys (operationsMember docs)).Sublist ["operations"] := by
  cases docs with
  | nil => exact List.nil_sublist _
  | cons => exact .refl _

/-- An edge is read from what it is written as if its operations are. -/
lemma decodeEdge_of_holds {name : String}
    (hd : ∀ {docs}, HoldsItems docs (operationsToJson operations) →
      decodeOperationItems .setAside docs = .ok operations)
    (h : doc.Holds (Operation.edge name operations).toJson) :
    decode origin doc = .ok (.edge name operations) := by
  have hname : Encodes (part .setAside Tag.edge.fields) [("edge", .string name)]
      [("edge", .text name)] := .single rfl decodeText_of_holds
  rw [decode_of_encodes _ _ (hname.append (encodes_operationsMember rfl hd)) rfl
    ((keys_operationsMember _).cons_cons "edge") h]
  cases operations <;> rfl

/-- So is a query. -/
lemma decodeQuery_of_operations {query : Query}
    (hd : ∀ {docs}, HoldsItems docs (operationsToJson query.operations) →
      decodeOperationItems origin docs = .ok query.operations)
    (h : doc.Holds query.toJson) : decodeQuery origin doc = .ok query := by
  obtain ⟨source, operations⟩ := query
  have hsource : Encodes (part origin queryFields) [("source", source.toJson)]
      [("source", .source source)] := .single rfl decodeSourcePart_of_holds
  rw [decodeQuery_of_encodes (hsource.append (encodes_operationsMember rfl hd))
    ((keys_operationsMember _).cons_cons "source") h]
  cases operations <;> rfl

end Nested

/-! ### Operations and queries -/

mutual

/-- The literals in the predicates of an operation. -/
def literals : Operation → List Literal
  | .filter predicate => predicate.literals
  | .edge _ operations => operationsLiterals operations
  | .union queries => queriesLiterals queries
  | _ => []

/-- The literals in all operations, in order. -/
def operationsLiterals : List Operation → List Literal
  | [] => []
  | operation :: rest => operation.literals ++ operationsLiterals rest

/-- The literals in the operations of all queries, in order. -/
def queriesLiterals : List Query → List Literal
  | [] => []
  | ⟨_, operations⟩ :: rest => operationsLiterals operations ++ queriesLiterals rest

end

mutual

/-- An operation whose doubles are finite is read from what it is written as. -/
lemma decode_of_holds : ∀ (operation : Operation),
    (∀ literal ∈ operation.literals, literal.Finite) →
    ∀ {origin doc}, doc.Holds operation.toJson → decode origin doc = .ok operation
  | .project fields, _, _, _, h =>
    decode_of_encodes .project [("fields", .strings fields)]
      (.single rfl decodeStrings_of_holds) rfl (.refl _) h
  | .filter predicate, hf, _, _, h =>
    decode_of_encodes .filter [("predicate", .predicate predicate)]
      (.single rfl (decodePredicate_of_holds hf)) rfl (.refl _) h
  | .take n, _, _, _, h =>
    decode_of_encodes .take [("count", .number n)]
      (.single rfl decodeNumber_of_holds) rfl (.refl _) h
  | .skip n, _, _, _, h =>
    decode_of_encodes .skip [("count", .number n)]
      (.single rfl decodeNumber_of_holds) rfl (.refl _) h
  | .count, _, _, _, h => decode_of_encodes .count [] .nil rfl (.refl _) h
  | .nest key, _, _, _, h =>
    decode_of_encodes .nest [("key", .text key)]
      (.single rfl decodeText_of_holds) rfl (.refl _) h
  | .rename old new, _, _, _, h =>
    decode_of_encodes .rename [("old", .text old), ("new", .text new)]
      (.cons rfl decodeText_of_holds (.single rfl decodeText_of_holds)) rfl (.refl _) h
  | .orderBy key direction, _, _, _, h =>
    decode_of_encodes .orderBy [("key", .text key), ("direction", .direction direction)]
      (.cons rfl decodeText_of_holds (.single rfl decodeDirection_of_holds)) rfl (.refl _) h
  | .groupBy key, _, _, _, h =>
    decode_of_encodes .groupBy [("key", .text key)]
      (.single rfl decodeText_of_holds) rfl (.refl _) h
  | .edge _ operations, hf, _, _, h =>
    decodeEdge_of_holds (decodeOperationItems_of_holds operations hf) h
  | .union queries, hf, _, _, h => by
    refine decode_of_encodes .union [("queries", .queries queries)]
      (.single rfl fun h => ?_) rfl (.refl _) h
    cases h with
    | array h => simp [decodeQueries, decodeQueryItems_of_holds queries hf h, Except.map]

lemma decodeOperationItems_of_holds : ∀ (operations : List Operation),
    (∀ literal ∈ operationsLiterals operations, literal.Finite) →
    ∀ {origin docs}, HoldsItems docs (operationsToJson operations) →
      decodeOperationItems origin docs = .ok operations
  | [], _, _, _, h => by
    cases h
    rfl
  | operation :: rest, hf, _, _, h => by
    obtain ⟨hoperation, hrest⟩ := List.forall_mem_append.1 hf
    cases h with
    | cons hitem hitems =>
      simp [decodeOperationItems, decode_of_holds operation hoperation hitem,
        decodeOperationItems_of_holds rest hrest hitems, bind, Except.bind, pure, Except.pure]

lemma decodeQueryItems_of_holds : ∀ (queries : List Query),
    (∀ literal ∈ queriesLiterals queries, literal.Finite) →
    ∀ {docs}, HoldsItems docs (queriesToJson queries) → decodeQueryItems docs = .ok queries
  | [], _, _, h => by
    cases h
    rfl
  | ⟨source, operations⟩ :: rest, hf, _, h => by
    obtain ⟨hoperations, hrest⟩ := List.forall_mem_append.1 hf
    cases h with
    | cons hitem hitems =>
      have hquery : decodeQuery .setAside _ = .ok ⟨source, operations⟩ :=
        decodeQuery_of_operations (decodeOperationItems_of_holds operations hoperations) hitem
      simp [decodeQueryItems, hquery, decodeQueryItems_of_holds rest hrest hitems, bind,
        Except.bind, pure, Except.pure]

end

end Operation

namespace Query

/-- The literals in the predicates of a query, those of its edges and unions among them. -/
def literals (query : Query) : List Literal :=
  Operation.operationsLiterals query.operations

/-- A query whose doubles are finite is read back from the value it is written as. -/
theorem ofJson_toJson (query : Query) (hf : ∀ literal ∈ query.literals, literal.Finite) :
    ofJson query.toJson = .ok query :=
  Operation.decodeQuery_of_operations (Operation.decodeOperationItems_of_holds query.operations hf)
    (Json.holds_toDocument query.toJson)

/-- Users that do not score less than a half, with their reviews, the best ones first. -/
def scoredUsers : Query :=
  let half : Double := ⟨false, 0x3fe0000000000000, by decide⟩
  let reviews : Query := ⟨{ objectType := "Review" }, [.orderBy "stars" .descending]⟩
  ⟨{ objectType := "User", ids := some [1, 2] },
    [.filter (.negation (.any [.comparison "score" .lessThan (.float half), .isNull "name"])),
      .edge "reviews" [.union [reviews]], .take 10]⟩

theorem ofJson_toJson_scoredUsers :
    (∀ literal ∈ scoredUsers.literals, literal.Finite) ∧
      ofJson scoredUsers.toJson = .ok scoredUsers :=
  ⟨by decide, ofJson_toJson scoredUsers (by decide)⟩

end Query
end ObjectGraph
