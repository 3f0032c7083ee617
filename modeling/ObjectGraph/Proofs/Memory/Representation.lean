/-
# Rows and items that are the same object

A query leaves rows in a database and items in memory.  A row and an item are the same object
under a header if both have a value for every column and nothing else; the item stores it under
the normalized name.  Only plain values are looked at here: booleans, integers and texts, which
are neither null nor written in more than one way.  What an operation does to a listing it then
does to the items, row by row.
-/
import ObjectGraph.Memory.Run
import ObjectGraph.Proofs.Compile.Aliases
import ObjectGraph.Proofs.Compile.Rows
import ObjectGraph.Proofs.Memory.Held
import Mathlib.Data.List.Forall2
import Mathlib.Data.List.Nodup

namespace ObjectGraph

variable {δ : Type} {D : Domain δ}

/-! ### Plain values -/

/-- A value of a type that is neither null nor written in more than one way. -/
inductive Json.Plain : ScalarType → Json → Prop
  | boolean (b : Bool) : Plain .boolean (.boolean b)
  | integer {type : ScalarType} {i : Int} (ht : type.isInteger = true ∨ type.isFloat = true)
    (hi : (int64? i).isSome = true) : Plain type (.int i)
  | text {type : ScalarType} {s : String} (ht : type.isText = true) : Plain type (.string s)

namespace Json.Plain

variable {type : ScalarType} {v w : Json}

lemma ne_null (h : v.Plain type) : v ≠ .null := by
  cases h <;> simp [Json.int]

lemma fits (h : v.Plain type) : type.fits v = true := by
  cases h with
  | boolean b => rfl
  | integer ht hi =>
    rcases ht with ht | ht <;> simp [Json.int, ScalarType.fits, ht]
  | text ht => simp [ScalarType.fits, ht]

lemma isStringEncoded_eq_false (h : v.Plain type) : type.isStringEncoded = false := by
  cases h with
  | boolean b => rfl
  | integer ht hi => cases type <;> simp_all [ScalarType.isInteger, ScalarType.isFloat,
      ScalarType.isStringEncoded]
  | text ht => exact ScalarType.isStringEncoded_eq_false ht

/-- A database holds plain values as they are, whatever it takes to be canonical. -/
lemma held (h : v.Plain type) (canonical : ScalarType → String → Prop) :
    Held D canonical type (some v) (v.cell D) := by
  have hencoded := h.isStringEncoded_eq_false
  have hcell : type.cell D v = v.cell D := by
    cases h with
    | boolean | integer => rfl
    | text => simp [ScalarType.cell, Json.cell, hencoded]
  rw [← hcell]
  refine .value h.ne_null h.fits ⟨fun i hi => ?_, fun ht => ?_⟩
  · cases h with
    | boolean | text => cases hi
    | integer _ hfits =>
      cases hi
      exact hfits
  · rw [hencoded] at ht
    cases ht

lemma not_number_of_isText (ht : type.isText = true) :
    ¬ (type.isInteger = true ∨ type.isFloat = true) := by
  cases type <;> first | simp [ScalarType.isInteger, ScalarType.isFloat]; done | cases ht

/-- Plain values of one type are sorted as their cells are. -/
lemma order_cell (hD : D.Sorts) (hv : v.Plain type) (hw : w.Plain type) :
    D.order (v.cell D) (w.cell D) = compareValues (some v) (some w) := by
  cases hv with
  | boolean a =>
    cases hw with
    | boolean b => exact hD.boolean a b
    | integer ht => rcases ht with ht | ht <;> cases ht
    | text ht => cases ht
  | integer ht hi =>
    cases hw with
    | boolean b => rcases ht with ht | ht <;> cases ht
    | integer _ hj => exact (hD.integer _ _).trans (Json.Number.order_int hi hj).symm
    | text ht' => exact absurd ht (not_number_of_isText ht')
  | text ht =>
    cases hw with
    | boolean b => cases ht
    | integer ht' => exact absurd ht' (not_number_of_isText ht)
    | text => exact hD.text _ _

end Json.Plain

/-! ### Headers whose names items can store -/

/-- Columns with names of their own, none of which items store under the name of another. -/
structure Header.Plain (header : Header) : Prop where
  nodup : header.names.Nodup
  names : ∀ name ∈ header.names, name ∉ [idKey, "_type", typeKey]

lemma normalizeKey_eq {name : String} (h : name ∉ [idKey, "_type", typeKey]) :
    normalizeKey name = if name = "id" then idKey else name := by
  simp only [List.mem_cons, List.not_mem_nil, or_false, not_or] at h
  simp only [normalizeKey, if_neg h.2.1]

lemma normalizeKey_inj {a b : String} (ha : a ∉ [idKey, "_type", typeKey])
    (hb : b ∉ [idKey, "_type", typeKey]) (h : normalizeKey a = normalizeKey b) : a = b := by
  rw [normalizeKey_eq ha, normalizeKey_eq hb] at h
  split at h <;> split at h
  · simp_all
  · exact absurd h.symm (by simp_all)
  · exact absurd h (by simp_all)
  · exact h

namespace Header

variable {header : Header} {column other : String × Option ScalarType} {reference : String}

lemma names_ofType (type : ObjectType) : (Header.ofType type).names = type.fields.keys := by
  simp only [Header.ofType, Header.names, List.map_map]
  rfl

lemma column?_eq_some (h : header.column? reference = some column) :
    column ∈ header ∧
      (column.1 = unqualified reference ∨ unqualified reference = idKey ∧ column.1 = "id") := by
  rw [column?, Option.or_eq_some_iff] at h
  rcases h with h | ⟨-, h⟩
  · exact ⟨List.mem_of_find?_eq_some h, .inl (by simpa using List.find?_some h)⟩
  · split at h
    · rename_i hkey
      exact ⟨List.mem_of_find?_eq_some h, .inr ⟨hkey, by simpa using List.find?_some h⟩⟩
    · cases h

/-- What a reference means is stored under its own normalized name. -/
lemma outputKey_eq (h : header.column? reference = some column) :
    Item.outputKey (unqualified reference) = normalizeKey column.1 := by
  rcases (column?_eq_some h).2 with hname | ⟨hkey, hname⟩
  · rw [hname]
    rfl
  · rw [hkey, hname]
    rfl

lemma nodup_append {picked : Header} (hn : picked.names.Nodup) (hc : column.1 ∉ picked.names) :
    (picked ++ [column]).names.Nodup := by
  rw [names, List.map_append, List.map_singleton]
  refine List.nodup_append.2 ⟨hn, by simp, fun a ha b hb he => hc ?_⟩
  rw [← List.mem_singleton.1 hb, ← he]
  exact ha

/-- Columns of one name are one column. -/
lemma Plain.eq_of_name (hp : header.Plain) (hc : column ∈ header) (ho : other ∈ header)
    (h : column.1 = other.1) : column = other :=
  List.inj_on_of_nodup_map hp.nodup hc ho h

/-- Fewer columns, each one once. -/
lemma Plain.of_subset (hp : header.Plain) {picked : Header} (hn : picked.names.Nodup)
    (hs : picked ⊆ header) : picked.Plain :=
  ⟨hn, fun name hm => hp.names name (List.map_subset _ hs hm)⟩

end Header

/-! ### The same object -/

/-- A row and an item with the same values for the columns of a header and nothing else. -/
structure Represents (D : Domain δ) (header : Header) (record : Record δ) (item : Item) :
    Prop where
  names : record.map Prod.fst = header.names
  keys : item.keys.Perm (header.names.map normalizeKey)
  cells : ∀ column ∈ header, ∃ type v, column.2 = some type ∧ v.Plain type ∧
    item.members.get? (normalizeKey column.1) = some v ∧ record.cell column.1 = v.cell D

namespace Represents

variable {header picked : Header} {record : Record δ} {item : Item}
  {column : String × Option ScalarType} {reference : String}

/-- A reference to a column finds in the item the value of its cell. -/
lemma value (hp : header.Plain) (h : Represents D header record item)
    (hc : header.column? reference = some column) :
    ∃ type v, column.2 = some type ∧ v.Plain type ∧ item.valueOf reference = some v ∧
      record.cell column.1 = v.cell D := by
  obtain ⟨hm, hname⟩ := Header.column?_eq_some hc
  obtain ⟨type, v, ht, hv, hget, hcell⟩ := h.cells column hm
  refine ⟨type, v, ht, hv, ?_, hcell⟩
  have hplain := hp.names column.1 (List.mem_map_of_mem hm)
  rw [normalizeKey_eq hplain] at hget
  have hid : "id" ∉ item.keys := by
    intro hk
    obtain ⟨name, hn, he⟩ := List.mem_map.1 (h.keys.mem_iff.1 hk)
    rw [normalizeKey_eq (hp.names name hn)] at he
    split at he
    · exact absurd he (by decide)
    · contradiction
  have hnone : item.members.get? "id" = none := Item.get?_eq_none hid
  rw [Item.valueOf, Item.get?]
  rcases hname with hname | ⟨hkey, hname⟩
  · rw [← hname]
    split at hget
    · rename_i hcolumn
      rw [hcolumn, hnone, if_pos rfl, hget]
      rfl
    · rw [hget]
      rfl
  · rw [hname, if_pos rfl] at hget
    rw [hkey, hget]
    rfl

/-! ### Projections -/

lemma names_restrict : (record.restrict picked).map Prod.fst = picked.names := by
  rw [Record.restrict, List.map_map]
  rfl

lemma cell_restrict (hn : picked.names.Nodup) (hc : column ∈ picked) :
    (record.restrict picked).cell column.1 = record.cell column.1 :=
  @Record.cell_map _ _ Prod.fst (fun column => record.cell column.1) _ hn _ hc

/-- A value that is stored is found under its key, everything else where it was. -/
lemma cells_insert {row : Record δ} (hp : picked.Plain) (hm : column ∈ picked) {type : ScalarType}
    {v : Json} (ht : column.2 = some type) (hv : v.Plain type)
    (hcell : row.cell column.1 = v.cell D)
    (h : ∀ other ∈ picked, other ≠ column → ∃ type v, other.2 = some type ∧ v.Plain type ∧
      item.members.get? (normalizeKey other.1) = some v ∧ row.cell other.1 = v.cell D) :
    ∀ other ∈ picked, ∃ type w, other.2 = some type ∧ w.Plain type ∧
      (item.insert (normalizeKey column.1) v).members.get? (normalizeKey other.1) = some w ∧
      row.cell other.1 = w.cell D := by
  have hget (key : String) : (item.insert (normalizeKey column.1) v).members.get? key
      = if key = normalizeKey column.1 then some v else item.members.get? key :=
    Named.lookup_put _ _ _ _
  intro other ho
  by_cases he : other = column
  · subst he
    exact ⟨type, v, ht, hv, by rw [hget, if_pos rfl], hcell⟩
  · obtain ⟨type, w, ht, hw, hold, hcell⟩ := h other ho he
    refine ⟨type, w, ht, hw, ?_, hcell⟩
    have hkey : normalizeKey other.1 ≠ normalizeKey column.1 := fun hkey =>
      he (hp.eq_of_name ho hm (normalizeKey_inj (hp.names _ (List.mem_map_of_mem ho))
        (hp.names _ (List.mem_map_of_mem hm)) hkey))
    rw [hget, if_neg hkey, hold]

/-- Storing the value of one more column. -/
lemma insert_new (hp : (picked ++ [column]).Plain)
    (h : Represents D picked (record.restrict picked) item) {type : ScalarType} {v : Json}
    (ht : column.2 = some type) (hv : v.Plain type) (hcell : record.cell column.1 = v.cell D) :
    Represents D (picked ++ [column]) (record.restrict (picked ++ [column]))
      (item.insert (normalizeKey column.1) v) := by
  have hm : column ∈ picked ++ [column] := by simp
  have hold : picked.names.Nodup ∧ column.1 ∉ picked.names := by
    have hn := hp.nodup
    rw [Header.names, List.map_append, List.nodup_append] at hn
    exact ⟨hn.1, fun hc => hn.2.2 _ hc _ (by simp) rfl⟩
  refine ⟨names_restrict, ?_, cells_insert hp hm ht hv ((cell_restrict hp.nodup hm).trans hcell)
    fun other ho hne => ?_⟩
  · have hkey : normalizeKey column.1 ∉ item.keys := by
      intro hk
      obtain ⟨name, hn, he⟩ := List.mem_map.1 (h.keys.mem_iff.1 hk)
      have hplain : name ∉ [idKey, "_type", typeKey] := by
        refine hp.names name ?_
        rw [Header.names, List.map_append]
        exact List.mem_append_left _ hn
      exact hold.2 (normalizeKey_inj hplain (hp.names _ (List.mem_map_of_mem hm)) he ▸ hn)
    rw [Item.keys, Item.insert, OrderedMap.keys, OrderedMap.insert, Named.keys_put_of_not_mem hkey,
      Header.names, List.map_append, List.map_append]
    exact h.keys.append_right _
  · have hpicked : other ∈ picked := by simpa [hne] using ho
    obtain ⟨type, w, ht, hw, hget, hcell⟩ := h.cells other hpicked
    refine ⟨type, w, ht, hw, hget, ?_⟩
    rw [cell_restrict hp.nodup ho, ← hcell, cell_restrict hold.1 hpicked]

/-- Storing the value of a column once more. -/
lemma insert_again (hp : picked.Plain) (h : Represents D picked (record.restrict picked) item)
    (hm : column ∈ picked) {type : ScalarType} {v : Json} (ht : column.2 = some type)
    (hv : v.Plain type) (hcell : record.cell column.1 = v.cell D) :
    Represents D picked (record.restrict picked) (item.insert (normalizeKey column.1) v) := by
  refine ⟨h.names, ?_, cells_insert hp hm ht hv ((cell_restrict hp.nodup hm).trans hcell)
    fun other ho _ => h.cells other ho⟩
  have hkey : normalizeKey column.1 ∈ item.keys :=
    h.keys.mem_iff.2 (List.mem_map_of_mem (List.mem_map_of_mem hm))
  rw [Item.keys, Item.insert, OrderedMap.keys, OrderedMap.insert, Named.keys_put_of_mem hkey]
  exact h.keys

lemma project_from (hp : header.Plain) (h : Represents D header record item) {projected : Item}
    {fields : List String} (hf : ∀ field ∈ fields, header.Has field) (hn : picked.names.Nodup)
    (hs : picked ⊆ header) (hprojected : Represents D picked (record.restrict picked) projected) :
    Represents D (header.pick picked fields) (record.restrict (header.pick picked fields))
      (fields.foldl (fun projected reference =>
        projected.insert (Item.outputKey (unqualified reference))
          ((item.valueOf reference).getD .null)) projected) := by
  induction fields generalizing picked projected with
  | nil => exact hprojected
  | cons reference rest ih =>
    obtain ⟨hfirst, hrest⟩ := List.forall_mem_cons.1 hf
    obtain ⟨column, hc⟩ := Option.isSome_iff_exists.1 hfirst
    obtain ⟨type, v, ht, hv, hvalue, hcell⟩ := h.value hp hc
    have hm := (Header.column?_eq_some hc).1
    rw [List.foldl_cons, Header.outputKey_eq hc, hvalue, Option.getD_some]
    simp only [Header.pick, hc]
    split
    · rename_i hname
      -- The name is picked already, so this very column is.
      obtain ⟨other, ho, he⟩ := List.mem_map.1 hname
      obtain rfl := hp.eq_of_name (hs ho) hm he
      exact ih hrest hn hs
        (hprojected.insert_again (hp.of_subset hn hs) ho ht hv hcell)
    · rename_i hname
      have hnames : (picked ++ [column]).names.Nodup := Header.nodup_append hn hname
      have hsubset : picked ++ [column] ⊆ header :=
        List.append_subset.2 ⟨hs, by simpa using hm⟩
      exact ih hrest hnames hsubset
        (hprojected.insert_new (hp.of_subset hnames hsubset) ht hv hcell)

lemma project (hp : header.Plain) (h : Represents D header record item) {fields : List String}
    (hf : ∀ field ∈ fields, header.Has field) :
    Represents D (header.pick [] fields) (record.restrict (header.pick [] fields))
      (item.project fields) :=
  h.project_from hp hf List.nodup_nil (List.nil_subset _)
    ⟨rfl, .nil, fun _ hm => absurd hm (by simp)⟩

/-! ### Counts -/

lemma counted {n : Nat} (hn : (Json.int64? n).isSome = true) :
    Represents D [("count", some .bigint)] [("count", some (D.integer n))] (Item.counted n) where
  names := rfl
  keys := .refl _
  cells := List.forall_mem_singleton.2
    ⟨.bigint, .int n, rfl, .integer (.inl rfl) hn, rfl, by simp [Record.cell, Json.cell, Json.int]⟩

end Represents

/-! ### Sorting rows and items -/

namespace Stable

variable {α β : Type} {related : α → β → Prop} {first : α → α → Ordering}
  {second : β → β → Ordering}

section

variable (ho : ∀ a b x y, related a x → related b y → first a b = second x y)
include ho

lemma forall₂_insertLast {a : α} {x : β} {l : List α} {l' : List β} (hx : related a x)
    (h : List.Forall₂ related l l') :
    List.Forall₂ related (insertLast first a l) (insertLast second x l') := by
  induction h with
  | nil => exact .cons hx .nil
  | @cons b y l l' hy h ih =>
    simp only [insertLast, ho a b x y hx hy]
    split
    · exact .cons hy ih
    · exact .cons hx (.cons hy h)

/-- Sorting by orders that agree on what is related keeps related lists related. -/
lemma forall₂_sort {l : List α} {l' : List β} (h : List.Forall₂ related l l') :
    List.Forall₂ related (sort first l) (sort second l') := by
  have hfold {sorted : List α} {sorted' : List β} (hs : List.Forall₂ related sorted sorted') :
      List.Forall₂ related (l.foldl (fun sorted a => insertLast first a sorted) sorted)
        (l'.foldl (fun sorted a => insertLast second a sorted) sorted') := by
    induction h generalizing sorted sorted' with
    | nil => exact hs
    | cons hx _ ih => exact ih (forall₂_insertLast ho hx hs)
  exact List.forall₂_reverse_iff.2 (hfold .nil)

end

end Stable

/-! ### The same object for those who ask for it -/

/-- A row as the object it is under the keys of items. -/
def SameObject (D : Domain δ) (record : Record δ) (item : Item) : Prop :=
  (record.map fun entry => (normalizeKey entry.1, entry.2)).Perm
    (item.members.entries.map fun entry => (entry.1, entry.2.cell D))

lemma Represents.sameObject {header : Header} {record : Record δ} {item : Item}
    (hp : header.Plain) (h : Represents D header record item) : SameObject D record item := by
  have hn : (record.map Prod.fst).Nodup := h.names ▸ hp.nodup
  -- Both are the list of their keys with what is found under each.
  let found (key : String) : String × Cell δ := (key, (item.members.get? key).bind (Json.cell D))
  have hitem : (item.members.entries.map fun entry => (entry.1, entry.2.cell D))
      = item.keys.map found := by
    rw [Item.keys, OrderedMap.keys, Named.keys, List.map_map]
    refine List.map_congr_left fun entry he => ?_
    have hget : item.members.get? entry.1 = some entry.2 :=
      Named.lookup_of_mem item.members.nodup he
    simp only [Function.comp_apply, found, hget, Option.bind_some]
  have hrecord : (record.map fun entry => (normalizeKey entry.1, entry.2))
      = (header.names.map normalizeKey).map found := by
    conv_lhs => rw [← Record.map_cell record hn]
    rw [h.names, List.map_map, List.map_map]
    refine List.map_congr_left fun name hm => ?_
    obtain ⟨column, hc, rfl⟩ := List.mem_map.1 hm
    obtain ⟨_, v, -, -, hget, hcell⟩ := h.cells column hc
    simp only [Function.comp_apply, found, hget, hcell, Option.bind_some]
  rw [SameObject, hitem, hrecord]
  exact (h.keys.map found).symm

end ObjectGraph
