/-
# Projecting onto fields

A projection stores the fields of a list one after the other, so that under a key the field counts
that was listed last of those that are stored there.  The identity and the type of an item are
stored under one key each, whatever they are called: both are renamed where an item is made and
where a field is projected.  Where a field is looked up only the identity is, and so a type that is
listed as `_type` is not found.
-/
import ObjectGraph.Memory.Reshape
import ObjectGraph.Proofs.Memory.Kinds
import ObjectGraph.Proofs.Predicate.Atoms

namespace ObjectGraph.Item

variable {item : Item} {fields : List String} {key field : String} {value : Json}

/-! ### What is stored last -/

/-- Of the fields that are stored under a key, the one that is listed last. -/
def lastUnder (key : String) (fields : List String) : Option String :=
  fields.reverse.find? fun field => outputKey (unqualified field) = key

/-- Storing fields one after the other stores the list of their keys and values. -/
lemma entries_foldl_insert (store : String → Json) (base : Item) (fields : List String) :
    (fields.foldl (fun projected field =>
        projected.insert (outputKey (unqualified field)) (store field)) base).members.entries
      = Named.putAll (fields.map fun field => (outputKey (unqualified field), store field))
          base.members.entries := by
  induction fields generalizing base with
  | nil => rfl
  | cons field rest ih => exact ih (base.insert (outputKey (unqualified field)) (store field))

/-- Under each key a projection holds what the item has in the last field that is stored there, or
null if it has no such field. -/
lemma get?_project (item : Item) (fields : List String) (key : String) :
    (item.project fields).members.get? key
      = (lastUnder key fields).map fun field => (item.valueOf field).getD .null := by
  rw [OrderedMap.get?, project, entries_foldl_insert, Named.lookup_putAll, ← List.map_reverse,
    Named.lookup_map_eq_find?]
  exact Option.or_none

/-! ### Fields of an item that was made of members -/

lemma type_not_mem_keys_ofMembers (members : List (String × Json)) :
    "_type" ∉ (ofMembers members).keys := by
  intro htype
  obtain ⟨entry, hentry, hkey⟩ := List.mem_map.1 (Named.mem_keys_collapse.1 htype)
  obtain ⟨⟨key, value⟩, -, rfl⟩ := List.mem_map.1 hentry
  exact (normalizeKey_ne key).2 hkey

/-- A field is found under the key it is stored under, unless it is called `_type`. -/
lemma valueOf_ofMembers (members : List (String × Json)) (hf : '.' ∉ field.toList) :
    (ofMembers members).valueOf field
      = if field = "_type" then none else (ofMembers members).members.get? (outputKey field) := by
  have hid : (ofMembers members).members.get? "id" = none :=
    get?_eq_none (id_not_mem_keys_ofMembers members)
  have htype : (ofMembers members).members.get? "_type" = none :=
    get?_eq_none (type_not_mem_keys_ofMembers members)
  rw [valueOf, Predicate.unqualified_eq_self hf, get?]
  by_cases h₁ : field = "_type"
  · subst h₁
    rw [htype]
    rfl
  · rw [if_neg h₁]
    by_cases h₂ : field = "id"
    · subst h₂
      rw [hid]
      rfl
    · rw [if_neg h₂, hid, ite_self, Option.or_none, outputKey, normalizeKey, if_neg h₂, if_neg h₁]

/-- A member of an object is found in its item, if no other member is stored under its key. -/
lemma get?_ofMembers {members : List (String × Json)}
    (hm : (members.map fun member => normalizeKey member.1).Nodup) (he : (field, value) ∈ members) :
    (ofMembers members).members.get? (outputKey field) = some value := by
  have hkeys : Named.keys (members.map fun member => (normalizeKey member.1, member.2))
      = members.map fun member => normalizeKey member.1 := by
    rw [Named.keys, List.map_map]
    rfl
  have hentries : (ofMembers members).members.entries
      = members.map fun member => (normalizeKey member.1, member.2) :=
    Named.putAll_of_nodup (by rwa [List.nil_append, hkeys])
  rw [OrderedMap.get?_eq_some, hentries]
  exact List.mem_map.2 ⟨(field, value), he, rfl⟩

/-- A field that is stored under a key is the last one of its list that is, or another one is. -/
lemma exists_lastUnder (h : field ∈ fields) (hf : '.' ∉ field.toList) :
    ∃ last ∈ fields, lastUnder (outputKey field) fields = some last
      ∧ outputKey (unqualified last) = outputKey field := by
  have hsome : (lastUnder (outputKey field) fields).isSome = true := by
    rw [lastUnder, List.find?_isSome]
    exact ⟨field, List.mem_reverse.2 h,
      decide_eq_true (by rw [Predicate.unqualified_eq_self hf])⟩
  obtain ⟨last, hlast⟩ := Option.isSome_iff_exists.1 hsome
  have hkey := List.find?_some hlast
  exact ⟨last, List.mem_reverse.1 (List.mem_of_find?_eq_some hlast), hlast, of_decide_eq_true hkey⟩

/-- An object none of whose keys is stored under that of another is made an item and projected onto
fields.  Each of its members that is listed is then held under the key of its field, unless the
last field that is stored there is `_type`: then null is. -/
theorem get?_project_ofMembers {members : List (String × Json)}
    (hm : (members.map fun member => normalizeKey member.1).Nodup)
    (hf : ∀ field ∈ fields, '.' ∉ field.toList) (he : (field, value) ∈ members)
    (hl : field ∈ fields) :
    ((ofMembers members).project fields).members.get? (outputKey field)
      = some (if lastUnder (outputKey field) fields = some "_type" then .null else value) := by
  obtain ⟨last, hmem, hlast, hkey⟩ := exists_lastUnder hl (hf field hl)
  have hplain := hf last hmem
  rw [Predicate.unqualified_eq_self hplain] at hkey
  rw [get?_project, hlast, Option.map_some, valueOf_ofMembers members hplain, hkey,
    get?_ofMembers hm he]
  -- What is left is to tell `_type` from other fields on both sides.
  simp only [Option.some.injEq]
  split <;> rfl

/-- The identity is listed in both spellings, and the type is listed as `:type` behind `_type`. -/
theorem get?_project_ofMembers_spellings :
    (["id", "_type", "name"].map normalizeKey).Nodup ∧
      ((ofMembers [("id", .int 7), ("_type", .string "User"), ("name", .string "a")]).project
        [":id", "_type", "id", ":type"]).members.get? (outputKey "id") = some (.int 7) ∧
      ((ofMembers [("id", .int 7), ("_type", .string "User"), ("name", .string "a")]).project
        ["_type", "id", ":type"]).members.get? (outputKey "_type") = some (.string "User") := by
  refine ⟨by decide, ?_, ?_⟩
  · have hid : ("id", Json.int 7) ∈
        [("id", .int 7), ("_type", .string "User"), ("name", .string "a")] := by simp
    exact (get?_project_ofMembers (by decide) (by decide) hid (by decide)).trans
      (congrArg some (if_neg (by decide)))
  · have htype : ("_type", Json.string "User") ∈
        [("id", .int 7), ("_type", .string "User"), ("name", .string "a")] := by simp
    exact (get?_project_ofMembers (by decide) (by decide) htype (by decide)).trans
      (congrArg some (if_neg (by decide)))

/-- The type of an item is lost when it is asked for as `_type`, the name it came with. -/
theorem get?_project_ne_type :
    ((ofMembers [("id", .int 7), ("_type", .string "User")]).project ["_type"]).members.get?
      (outputKey "_type") ≠ some (.string "User") := by
  have hnull : ((ofMembers [("id", .int 7), ("_type", .string "User")]).project
      ["_type"]).members.get? (outputKey "_type") = some .null := rfl
  rw [hnull]
  nofun

end ObjectGraph.Item
