/-
# Normal values

A value is normal if every object in it, however deep, names each member once and under the
spelling that keys are stored in.  Normalizing makes any value normal: it stores members under
spellings that it would not change, and of members that come to share a key one is kept.  It leaves
alone what is normal already, so a second time it does nothing.  The objects of a response are
normal, and a response is read back from its list.
-/
import ObjectGraph.Item.Response
import ObjectGraph.Proofs.Named

namespace ObjectGraph

/-! ### Keys -/

lemma normalizeKey_cases (key : String) : normalizeKey key = idKey ∨ normalizeKey key = typeKey ∨
    normalizeKey key = key ∧ key ≠ "id" ∧ key ≠ "_type" := by
  unfold normalizeKey
  split
  · exact .inl rfl
  · rename_i hid
    split
    · exact .inr (.inl rfl)
    · rename_i htype
      exact .inr (.inr ⟨rfl, hid, htype⟩)

lemma normalizeKey_normalizeKey (key : String) :
    normalizeKey (normalizeKey key) = normalizeKey key := by
  obtain h | h | ⟨h, -, -⟩ := normalizeKey_cases key
  · rw [h]
    decide
  · rw [h]
    decide
  · rw [h, h]

lemma normalizeKey_ne (key : String) : normalizeKey key ≠ "id" ∧ normalizeKey key ≠ "_type" := by
  obtain h | h | ⟨h, hne⟩ := normalizeKey_cases key
  · rw [h]
    decide
  · rw [h]
    decide
  · rw [h]
    exact hne

lemma Item.normalizeKey_ne_id (key : String) : normalizeKey key ≠ "id" := (normalizeKey_ne key).1

namespace Json

variable {value inner : Json} {items : List Json} {members : List (String × Json)}
  {entry : String × Json} {key : String}

/-! ### Objects at any depth -/

/-- A value is within itself, and within an array or an object if it is within an item or a
member. -/
inductive Within (inner : Json) : Json → Prop
  | self : Within inner inner
  | item {item : Json} {items : List Json} (hm : item ∈ items) (h : Within inner item) :
      Within inner (array items)
  | member {entry : String × Json} {members : List (String × Json)} (hm : entry ∈ members)
      (h : Within inner entry.2) : Within inner (object members)

/-- Every object within the value names each member once and in the spelling that is stored. -/
def Normal (value : Json) : Prop :=
  ∀ members, Within (object members) value →
    (Named.keys members).Nodup ∧ ∀ key ∈ Named.keys members, normalizeKey key = key

lemma Normal.of_item {item : Json} (h : (array items).Normal) (hm : item ∈ items) : item.Normal :=
  fun members hw => h members (.item hm hw)

lemma Normal.of_member (h : (object members).Normal) (hm : entry ∈ members) : entry.2.Normal :=
  fun fields hw => h fields (.member hm hw)

lemma normal_array (h : ∀ item ∈ items, item.Normal) : (array items).Normal := by
  intro members hw
  cases hw with
  | item hm hw => exact h _ hm members hw

lemma normal_object (hn : (Named.keys members).Nodup)
    (hk : ∀ key ∈ Named.keys members, normalizeKey key = key)
    (h : ∀ entry ∈ members, entry.2.Normal) : (object members).Normal := by
  intro fields hw
  cases hw with
  | self => exact ⟨hn, hk⟩
  | member hm hw => exact h _ hm fields hw

/-! ### Normalizing makes values normal -/

lemma normalizeMembers_eq (members : List (String × Json)) : normalizeMembers members =
    members.map fun member => (normalizeKey member.1, member.2.normalize) := by
  induction members with
  | nil => rfl
  | cons entry rest ih => exact congrArg ((normalizeKey entry.1, entry.2.normalize) :: ·) ih

lemma keys_normalizeMembers :
    Named.keys (normalizeMembers members) = (Named.keys members).map normalizeKey := by
  rw [normalizeMembers_eq, Named.keys, Named.keys, List.map_map, List.map_map]
  rfl

/-- An object has its keys where each is stored first, with the value that is stored last. -/
lemma exists_normalize_object (members : List (String × Json)) : ∃ fields,
    (object members).normalize = object fields ∧
      Named.keys fields = ((Named.keys members).map normalizeKey).eraseDups ∧
      ∀ key, fields.lookup key
        = (members.reverse.find? fun member => normalizeKey member.1 = key).map
            fun member => member.2.normalize := by
  refine ⟨_, rfl, ?_, fun key => ?_⟩
  · rw [Named.keys_collapse, keys_normalizeMembers]
  · rw [Named.lookup_collapse, normalizeMembers_eq, ← List.map_reverse, Named.lookup_map_eq_find?]

lemma normalizeKey_of_mem (h : key ∈ Named.keys (Named.collapse (normalizeMembers members))) :
    normalizeKey key = key := by
  rw [Named.mem_keys_collapse, keys_normalizeMembers] at h
  obtain ⟨stored, -, rfl⟩ := List.mem_map.1 h
  exact normalizeKey_normalizeKey stored

mutual

lemma normal_normalize : ∀ value : Json, value.normalize.Normal
  | .null | .boolean _ | .number _ | .string _ => nofun
  | .array items => normal_array (normal_of_mem_items items)
  | .object members =>
    normal_object (Named.nodup_keys_collapse _) (fun _ => normalizeKey_of_mem) fun entry hm =>
      normal_of_mem_members members entry (Named.mem_of_mem_collapse hm)

lemma normal_of_mem_items : ∀ items : List Json, ∀ item ∈ normalizeItems items, item.Normal
  | [], _, hm => nomatch hm
  | item :: rest, _, hm => by
    rcases List.mem_cons.1 hm with rfl | hm
    · exact normal_normalize item
    · exact normal_of_mem_items rest _ hm

lemma normal_of_mem_members : ∀ members : List (String × Json),
    ∀ entry ∈ normalizeMembers members, entry.2.Normal
  | [], _, hm => nomatch hm
  | (_, value) :: rest, _, hm => by
    rcases List.mem_cons.1 hm with rfl | hm
    · exact normal_normalize value
    · exact normal_of_mem_members rest _ hm

end

/-! ### Normal values are left alone -/

mutual

lemma normalize_of_normal : ∀ {value : Json}, value.Normal → value.normalize = value
  | .null, _ | .boolean _, _ | .number _, _ | .string _, _ => rfl
  | .array _, h => congrArg array (normalizeItems_of_normal fun _ => h.of_item)
  | .object members, h => by
    obtain ⟨hn, hk⟩ := h members .self
    -- Storing distinct keys one after the other adds each at the end.
    rw [normalize, normalizeMembers_of_normal hk fun _ => h.of_member]
    exact congrArg object (Named.putAll_of_nodup hn)

lemma normalizeItems_of_normal : ∀ {items : List Json}, (∀ item ∈ items, item.Normal) →
    normalizeItems items = items
  | [], _ => rfl
  | item :: rest, h => by
    obtain ⟨hitem, hrest⟩ := List.forall_mem_cons.1 h
    rw [normalizeItems, normalize_of_normal hitem, normalizeItems_of_normal hrest]

lemma normalizeMembers_of_normal : ∀ {members : List (String × Json)},
    (∀ key ∈ Named.keys members, normalizeKey key = key) →
    (∀ entry ∈ members, entry.2.Normal) → normalizeMembers members = members
  | [], _, _ => rfl
  | (key, value) :: rest, hk, h => by
    obtain ⟨hkey, hkeys⟩ := List.forall_mem_cons.1 hk
    obtain ⟨hvalue, hrest⟩ := List.forall_mem_cons.1 h
    rw [normalizeMembers, hkey, normalize_of_normal hvalue, normalizeMembers_of_normal hkeys hrest]

end

end Json

/-! ### Responses -/

namespace Response

open Json (Normal Within)

lemma item?_toJson (item : Item) : item? item.toJson = some item :=
  congrArg (fun members => some (Item.mk members)) item.members.ofList_entries

lemma toJson_of_item? {value : Json} {item : Item} (hv : value.Normal)
    (h : item? value = some item) : item.toJson = value := by
  cases value with
  | object members =>
    cases h
    exact congrArg Json.object (Named.putAll_of_nodup (hv members .self).1)
  | null | boolean | number | string | array => cases h

lemma normal_of_mem_ofRows {rows : Json} {item : Item} (h : item ∈ (ofRows rows).items) :
    item.toJson.Normal := by
  have hrows := Json.normal_normalize rows
  -- The items of a list are rows of it, and an object is the only item by itself.
  unfold ofRows at h
  split at h
  · rename_i values heq
    rw [heq] at hrows
    obtain ⟨value, hm, hvalue⟩ := List.mem_filterMap.1 h
    rw [toJson_of_item? (hrows.of_item hm) hvalue]
    exact hrows.of_item hm
  · rename_i members heq
    rw [heq] at hrows
    rw [List.mem_singleton.1 h, toJson_of_item? hrows rfl]
    exact hrows
  · cases h

/-- Items that are normal are read back from their list. -/
lemma ofRows_toList {response : Response} (h : ∀ item ∈ response.items, item.toJson.Normal) :
    ofRows (.array response.toList) = response := by
  have hnormal : (Json.array response.toList).Normal :=
    Json.normal_array (List.forall_mem_map.2 h)
  rw [ofRows, Json.normalize_of_normal hnormal]
  have hread : item? ∘ Item.toJson = some := funext item?_toJson
  have hitems : response.toList.filterMap item? = response.items := by
    rw [toList, List.filterMap_map, hread, List.filterMap_some]
  exact congrArg Response.mk hitems

end Response

namespace Json

/-- Normalizing a value twice is normalizing it once; no object in the result, however deep, has the
identity or the type under the spelling it came with; and the list of a response is read back as
the same items with the same members in the same order.  An object keeps its keys in the order in
which they are stored first, each with the normalized value that is stored last. -/
theorem normalize_stable (value : Json) :
    value.normalize.normalize = value.normalize ∧
      (∀ members, Within (object members) value.normalize →
        ∀ key ∈ Named.keys members, key ≠ "id" ∧ key ≠ "_type") ∧
      Response.ofRows (.array (Response.ofRows value).toList) = Response.ofRows value ∧
      ∀ members, value = object members → ∃ fields, value.normalize = object fields ∧
        Named.keys fields = ((Named.keys members).map normalizeKey).eraseDups ∧
        ∀ key, fields.lookup key
          = (members.reverse.find? fun member => normalizeKey member.1 = key).map
              fun member => member.2.normalize := by
  have hnormal := normal_normalize value
  refine ⟨normalize_of_normal hnormal, fun members hw key hk => ?_, ?_, ?_⟩
  · rw [← (hnormal members hw).2 key hk]
    exact normalizeKey_ne key
  · exact Response.ofRows_toList fun item => Response.normal_of_mem_ofRows
  · rintro members rfl
    exact exists_normalize_object members

end Json
end ObjectGraph
