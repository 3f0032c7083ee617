/-
# Predicates that are stored as trees

A predicate whose doubles are finite is read back from any document that holds what it is written
as.  Members are read as those of other records are, apart from two things: a predicate may lie
below another one, and its tag is passed over with the members that nobody asks for.
-/
import ObjectGraph.Predicate.Format
import ObjectGraph.Proofs.Cells
import ObjectGraph.Proofs.Json.Holding

namespace ObjectGraph

open Json (Document Decoded Origin Encodes HoldsItems HoldsMembers tagName decodeString)
open Json.Document (Holds)

variable {doc : Document} {origin : Origin}

lemma ComparisonOperator.lookup_names (operator : ComparisonOperator) :
    names.lookup operator.name = some operator := by
  cases operator <;> decide

/-! ### Literals -/

/-- The literal is no double without a JSON number. -/
def Literal.Finite : Literal → Prop
  | float x => x.isFinite = true
  | _ => True

instance : DecidablePred Literal.Finite
  | .float x => inferInstanceAs (Decidable (x.isFinite = true))
  | .null | .boolean _ | .integer _ | .string _ => isTrue trivial

lemma Literal.decode_of_holds {literal : Literal} (hf : literal.Finite)
    (h : doc.Holds literal.toJson) : Predicate.decodeLiteral doc = .ok literal := by
  have hfault := h.firstFault
  cases literal with
  | integer i =>
    cases h
    simp [Predicate.decodeLiteral, Json.unlessFault, bind, Except.bind, hfault,
      Json.Number.int64?, Json.int64?_toInt, pure, Except.pure]
  | float x =>
    rw [Literal.Finite] at hf
    rw [Literal.toJson, if_pos hf] at h
    cases h
    rfl
  | _ =>
    cases h
    rfl

namespace Predicate

mutual

/-- The literals of a predicate, in the order in which they stand in it. -/
def literals : Predicate → List Literal
  | all parts | any parts => partsLiterals parts
  | negation p => p.literals
  | comparison _ _ value => [value]
  | oneOf _ values => values
  | isNull _ => []

/-- The literals in all parts, in order. -/
def partsLiterals : List Predicate → List Literal
  | [] => []
  | p :: rest => p.literals ++ partsLiterals rest

end

/-! ### Members -/

section Members

variable {tag : Tag} {name : String} {docs : List (String × Document)}
  {ms : List (String × Json)} {parts : List (String × Part)}

/-- How a member of a predicate is read. -/
def part (tag : Tag) (name : String) : Option (Document → Decoded Part) :=
  (tag.fields.lookup name).map fun
    | .predicates => fun doc => (decodePredicates doc).map .predicates
    | .predicate => fun doc => (decode .setAside doc).map .predicate
    | .simple kind => decodeSimple kind

lemma decodeParts_eq {seen : List String} (h : ∀ member ∈ docs, member.2.passingFault = none) :
    decodeParts tag seen docs = Json.decodeMembers (part tag) seen docs := by
  induction docs generalizing seen with
  | nil => rfl
  | cons member rest ih =>
    obtain ⟨name, doc⟩ := member
    obtain ⟨hdoc, hrest⟩ := List.forall_mem_cons.1 h
    cases hlookup : tag.fields.lookup name with
    | none =>
      simp [decodeParts, Json.decodeMembers, part, hlookup, hdoc, Json.unlessFault, ih hrest,
        bind, Except.bind]
    | some kind => cases kind <;> simp [decodeParts, Json.decodeMembers, part, hlookup, ih hrest]

lemma part_tagName : part tag tagName = none := by
  cases tag <;> rfl

lemma nodup_fields : (tag.fields.map Prod.fst).Nodup := by
  cases tag <;> decide

/-- A tree that is held is put together from the parts that its members are read as. -/
lemma decode_of_encodes (tag : Tag) (parts : List (String × Part)) (h : Encodes (part tag) ms parts)
    (hv : variants.lookup name = some tag)
    (hs : (Named.keys ms).Sublist (tag.fields.map Prod.fst))
    (hd : doc.Holds (.object ((tagName, .string name) :: ms))) :
    decode origin doc = assemble tag ⟨tag.shape, false, parts⟩ := by
  cases hd with
  | object hd =>
    obtain ⟨hvariant, hparts⟩ :=
      h.afterTag origin hv part_tagName hs nodup_fields hd
    rw [← decodeParts_eq hd.passingFault] at hparts
    simp [decode, Json.enter, hvariant, hparts, bind, Except.bind]

end Members

/-! ### Trees -/

lemma decodePredicates_of_holds {ps : List Predicate} (h : doc.Holds (.array (partsToJson ps)))
    (hd : ∀ {docs}, HoldsItems docs (partsToJson ps) → decodeItems docs = .ok ps) :
    decodePredicates doc = .ok ps := by
  cases h with
  | array h => exact hd h

section Simple

variable {field : String} {operator : ComparisonOperator} {value : Literal}
  {values : List Literal}

lemma decodeField_of_holds (h : doc.Holds (.string field)) :
    decodeSimple .field doc = .ok (.field field) := by
  rw [decodeSimple, Json.decodeString_of_holds h]
  rfl

lemma decodeOperator_of_holds (h : doc.Holds (.string operator.name)) :
    decodeSimple .operator doc = .ok (.operator operator) := by
  rw [decodeSimple, Json.decodeChoice_of_holds h operator.lookup_names]
  rfl

lemma decodeValue_of_holds (hf : value.Finite) (h : doc.Holds value.toJson) :
    decodeSimple .value doc = .ok (.value value) := by
  rw [decodeSimple, Literal.decode_of_holds hf h]
  rfl

lemma decodeValues_of_holds (hf : ∀ literal ∈ values, literal.Finite)
    (h : doc.Holds (.array (values.map Literal.toJson))) :
    decodeSimple .values doc = .ok (.values values) := by
  have hvalues := Json.decodeList_of_holds h fun literal hm =>
    Literal.decode_of_holds (hf literal hm)
  rw [decodeSimple, hvalues]
  rfl

end Simple

mutual

/-- A predicate whose doubles are finite is read from what it is written as. -/
lemma decode_of_holds : ∀ (p : Predicate), (∀ literal ∈ p.literals, literal.Finite) →
    ∀ {origin doc}, doc.Holds p.toJson → decode origin doc = .ok p
  | .all ps, hf, _, _, h => by
    refine decode_of_encodes .all [("expressions", .predicates ps)]
      (.single rfl fun h => ?_) rfl (.refl _) h
    simp [decodePredicates_of_holds h (decodeItems_of_holds ps hf), Except.map]
  | .any ps, hf, _, _, h => by
    refine decode_of_encodes .any [("expressions", .predicates ps)]
      (.single rfl fun h => ?_) rfl (.refl _) h
    simp [decodePredicates_of_holds h (decodeItems_of_holds ps hf), Except.map]
  | .negation p, hf, _, _, h => by
    refine decode_of_encodes .negation [("expression", .predicate p)]
      (.single rfl fun h => ?_) rfl (.refl _) h
    simp [decode_of_holds p hf h, Except.map]
  | .comparison field operator value, hf, _, _, h => by
    have hfield : Encodes (part .comparison) [("field", .string field)] [("field", .field field)] :=
      .single rfl decodeField_of_holds
    have hoperator : Encodes (part .comparison) [("operator", .string operator.name)]
        [("operator", .operator operator)] := .single rfl decodeOperator_of_holds
    have hvalue : Encodes (part .comparison) [("value", value.toJson)] [("value", .value value)] :=
      .single rfl (decodeValue_of_holds (hf value (List.mem_singleton_self _)))
    exact decode_of_encodes _ _ ((hfield.append hoperator).append hvalue) rfl (.refl _) h
  | .oneOf field values, hf, _, _, h => by
    have hfield : Encodes (part .oneOf) [("field", .string field)] [("field", .field field)] :=
      .single rfl decodeField_of_holds
    have hvalues : Encodes (part .oneOf) [("values", .array (values.map Literal.toJson))]
        [("values", .values values)] := .single rfl (decodeValues_of_holds hf)
    exact decode_of_encodes _ _ (hfield.append hvalues) rfl (.refl _) h
  | .isNull field, hf, _, _, h =>
    decode_of_encodes .isNull [("field", .field field)]
      (.single rfl decodeField_of_holds) rfl (.refl _) h

lemma decodeItems_of_holds : ∀ (ps : List Predicate),
    (∀ literal ∈ partsLiterals ps, literal.Finite) →
    ∀ {docs}, HoldsItems docs (partsToJson ps) → decodeItems docs = .ok ps
  | [], _, _, h => by
    cases h
    rfl
  | p :: rest, hf, _, h => by
    obtain ⟨hp, hrest⟩ := List.forall_mem_append.1 hf
    cases h with
    | cons hitem hitems =>
      simp [decodeItems, decode_of_holds p hp hitem, decodeItems_of_holds rest hrest hitems,
        bind, Except.bind, pure, Except.pure]

end

/-- Where a predicate may be given as text or as a tree, one that was written is read as the tree
it is. -/
lemma decodeInput_of_holds {p : Predicate} (hf : ∀ literal ∈ p.literals, literal.Finite)
    (h : doc.Holds p.toJson) : decodeInput doc = .ok p := by
  have hfault := h.firstFault
  have hdecode : decode .setAside doc = .ok p := decode_of_holds p hf h
  have hrecord : ∃ ms, p.toJson = .object ms := by cases p <;> exact ⟨_, rfl⟩
  obtain ⟨ms, hms⟩ := hrecord
  rw [hms] at h
  cases h
  simp [decodeInput, hfault, Json.unlessFault, hdecode, bind, Except.bind]

end Predicate
end ObjectGraph
