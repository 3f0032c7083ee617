/-
# Catalogs that are stored as JSON

A catalog is read from any document that holds what it is written as, with its fields, edges and
column mappings in the order of their declaration: names that differ are stored in the order in
which they are met, and object types are written in the order of their names.
-/
import ObjectGraph.Catalog.Format
import ObjectGraph.Proofs.Json.Holding
import ObjectGraph.Proofs.Named

namespace ObjectGraph

open Json (Document Decoded Origin Encodes)
open Json.Document (Holds)

/-! ### Members that may be left out -/

variable {π : Type} {part : String → Option (Document → Decoded π)} {name : String}
  {text : Option String} {wrap : Option String → π} {doc : Document} {origin : Origin}

/-- What an optional member is read as: nothing, if it is left out. -/
def optionalPart (name : String) (wrap : Option String → π) (text : Option String) :
    List (String × π) :=
  (text.map fun s => (name, wrap (some s))).toList

lemma encodes_optionalMember (part : String → Option (Document → Decoded π)) (name : String)
    (text : Option String)
    (hpart : part name = some fun doc => (Json.decodeOption Json.decodeString doc).map wrap) :
    Encodes part (optionalMember name text) (optionalPart name wrap text) := by
  cases text with
  | none => exact .nil
  | some s =>
    refine .single hpart fun h => ?_
    rw [Json.decodeOption_of_holds h (by simp) (Json.decodeString_of_holds h)]
    rfl

lemma keys_optionalMember (name : String) (text : Option String) :
    (Named.keys (optionalMember name text)).Sublist [name] := by
  cases text with
  | none => exact List.nil_sublist _
  | some => exact .refl _

/-! ### Fields -/

namespace Catalog

lemma lookup_nullabilities (nullable : Bool) :
    nullabilities.lookup (if nullable then "Nullable" else "NonNullable") = some nullable := by
  cases nullable <;> rfl

lemma decodeField_of_holds {field : Field} (h : doc.Holds field.toJson) :
    decodeField origin doc = .ok field := by
  have hcolumn : Encodes (fieldPart origin) [("columnName", .string field.column)]
      [("columnName", .column field.column)] := .single rfl fun h => by
    rw [Json.decodeString_of_holds h]
    rfl
  have htype : Encodes (fieldPart origin) [("type", .string field.type.sqlName)]
      [("type", .type field.type)] := .single rfl fun h => by
    rw [Json.decodeChoice_of_holds h field.type.lookup_names]
    rfl
  have hnullable : Encodes (fieldPart origin)
      [("nullable", .string (if field.nullable then "Nullable" else "NonNullable"))]
      [("nullable", .nullable field.nullable)] := .single rfl fun h => by
    rw [Json.decodeChoice_of_holds h (lookup_nullabilities field.nullable)]
    rfl
  have hparts := ((hcolumn.append htype).append hnullable).append
    (encodes_optionalMember _ "description" field.description rfl)
  rw [decodeField, hparts.decodeRecord fieldShape _ _ (by decide) h]
  · obtain ⟨column, type, nullable, description⟩ := field
    cases description <;> rfl
  · exact (keys_optionalMember _ _).append_left ["columnName", "type", "nullable"]

/-! ### Edges -/

lemma decodeMapping_of_holds {mapping : OrderedMap String}
    (h : doc.Holds (mapToJson .string mapping)) :
    (Json.decodeMap Json.decodeString doc).map (fun entries => JoinPart.mapping (.ofList entries)) =
      .ok (.mapping mapping) := by
  rw [Json.decodeMap_of_holds h fun _ _ _ h => Json.decodeString_of_holds h]
  exact congrArg (Except.ok ∘ JoinPart.mapping) mapping.ofList_entries

lemma decodeJoinName_of_holds {s : String} (h : doc.Holds (.string s)) :
    (Json.decodeString doc).map JoinPart.name = .ok (.name s) := by
  rw [Json.decodeString_of_holds h]
  rfl

lemma decodeJoin_of_holds {join : Join} (h : doc.Holds join.toJson) :
    decodeJoin origin doc = .ok join := by
  cases join with
  | columns mapping =>
    have hparts : Encodes (joinPart false) [("columnMapping", mapToJson .string mapping)]
        [("columnMapping", .mapping mapping)] := .single rfl decodeMapping_of_holds
    rw [decodeJoin, hparts.decodeTagged joinShape joinPart rfl rfl (.refl _) (by decide) h]
    rfl
  | through schema table source target =>
    have hnames : Encodes (joinPart true)
        [("tableName", .string table), ("sourceColumn", .string source),
          ("targetColumn", .string target)]
        [("tableName", .name table), ("sourceColumn", .name source),
          ("targetColumn", .name target)] :=
      .cons rfl decodeJoinName_of_holds (.cons rfl decodeJoinName_of_holds
        (.single rfl decodeJoinName_of_holds))
    have hparts := (encodes_optionalMember _ "schemaName" schema rfl).append hnames
    rw [decodeJoin, hparts.decodeTagged joinShape joinPart rfl rfl _ (by decide) h]
    · cases schema <;> rfl
    · rw [Named.keys_append]
      exact (keys_optionalMember _ _).append_right ["tableName", "sourceColumn", "targetColumn"]

lemma lookup_cardinalities (cardinality : Cardinality) :
    cardinalities.lookup cardinality.name = some cardinality := by
  cases cardinality <;> rfl

lemma decodeEdge_of_holds {edge : Edge} (h : doc.Holds edge.toJson) :
    decodeEdge origin doc = .ok edge := by
  have htarget : Encodes (edgePart origin) [("target", .string edge.target)]
      [("target", .target edge.target)] := .single rfl fun h => by
    rw [Json.decodeString_of_holds h]
    rfl
  have hcardinality : Encodes (edgePart origin)
      [("cardinality", .string edge.cardinality.name)]
      [("cardinality", .cardinality edge.cardinality)] := .single rfl fun h => by
    rw [Json.decodeChoice_of_holds h (lookup_cardinalities edge.cardinality)]
    rfl
  have hjoin : Encodes (edgePart origin) [("join", edge.join.toJson)]
      [("join", .join edge.join)] := .single rfl fun h => by
    rw [decodeJoin_of_holds h]
    rfl
  have hparts := ((((htarget.append hcardinality).append hjoin).append
    (encodes_optionalMember _ "relationshipType" edge.relationship rfl)).append
    (encodes_optionalMember _ "description" edge.description rfl))
  rw [decodeEdge, hparts.decodeRecord edgeShape _ _ (by decide) h]
  · obtain ⟨target, cardinality, join, relationship, description⟩ := edge
    cases relationship <;> cases description <;> rfl
  · simp only [Named.keys_append]
    exact ((keys_optionalMember "relationshipType" _).append_left
      ["target", "cardinality", "join"]).append (keys_optionalMember "description" _)

/-! ### Object types -/

lemma decodeObjectType_of_holds {type : ObjectType} (h : doc.Holds type.toJson) :
    decodeObjectType origin doc = .ok type := by
  have htable : Encodes (typePart origin) [("tableName", .string type.table)]
      [("tableName", .name type.table)] := .single rfl fun h => by
    rw [Json.decodeString_of_holds h]
    rfl
  have hidField : Encodes (typePart origin) [("idField", .string type.idField)]
      [("idField", .name type.idField)] := .single rfl fun h => by
    rw [Json.decodeString_of_holds h]
    rfl
  have hfields : Encodes (typePart origin) [("fields", mapToJson Field.toJson type.fields)]
      [("fields", .fields type.fields)] := .single rfl fun h => by
    rw [Json.decodeMap_of_holds h fun _ _ _ h => decodeField_of_holds h]
    exact congrArg (Except.ok ∘ TypePart.fields) type.fields.ofList_entries
  have hedges : Encodes (typePart origin)
      (if type.edges.isEmpty then [] else [("edges", mapToJson Edge.toJson type.edges)])
      (if type.edges.isEmpty then [] else [("edges", .edges type.edges)]) :=
    .leftOut _ rfl fun h => by
      rw [Json.decodeMap_of_holds h fun _ _ _ h => decodeEdge_of_holds h]
      exact congrArg (Except.ok ∘ TypePart.edges) type.edges.ofList_entries
  have hschema := encodes_optionalMember (typePart origin) "schemaName" type.schema rfl
  have hlabel := encodes_optionalMember (typePart origin) "label" type.label rfl
  have hdescription := encodes_optionalMember (typePart origin) "description" type.description rfl
  have hparts := ((((hschema.append htable).append hlabel).append (hidField.append hfields)).append
    hedges).append hdescription
  rw [decodeObjectType, hparts.decodeRecord typeShape _ _ (by decide) h]
  · -- Each of the members that may be left out is there or not.
    obtain ⟨schema, table, label, idField, fields, ⟨edges, hnodup⟩, description⟩ := type
    cases schema <;> cases label <;> cases edges <;> cases description <;> rfl
  · simp only [Named.keys_append]
    exact (((((keys_optionalMember "schemaName" _).append (.refl ["tableName"])).append
      (keys_optionalMember "label" _)).append (.refl ["idField", "fields"])).append
      (Json.keys_leftOut _ "edges" _)).append (keys_optionalMember "description" _)

/-! ### Catalogs -/

lemma decodeTypes_of_holds {types : SortedMap ObjectType}
    (h : doc.Holds (.object (types.entries.map fun (name, type) => (name, type.toJson)))) :
    (Json.decodeMap (decodeObjectType origin) doc).map SortedMap.ofList = .ok types := by
  rw [Json.decodeMap_of_holds h fun _ _ _ h => decodeObjectType_of_holds h]
  exact congrArg Except.ok types.ofList_entries

/-- A catalog is read from what it is written as. -/
lemma decode_of_holds {catalog : Catalog} (h : doc.Holds catalog.toJson) :
    decode origin doc = .ok catalog := by
  have hparts : Encodes
      (fun name => if name = "objectTypes" then
        some fun doc => (Json.decodeMap (decodeObjectType origin) doc).map SortedMap.ofList
        else none)
      [("objectTypes",
        .object (catalog.types.entries.map fun (name, type) => (name, type.toJson)))]
      [("objectTypes", catalog.types)] := .single rfl decodeTypes_of_holds
  have hfields := hparts.decodeRecord shape origin (.refl _) (by decide) h
  exact (congrArg (· >>= _) hfields).trans rfl

end Catalog
end ObjectGraph
