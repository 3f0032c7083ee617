/-
# Fields that are chosen

A projection names fields, perhaps one of them twice or by two references.  What it leaves of a
record, or of a header as a record of types, are the cells of the names that the references mean,
each one once and where it is named first.
-/
import ObjectGraph.Proofs.Memory.Representation

namespace ObjectGraph

variable {δ ε : Type}

/-! ### Lists without repetitions -/

namespace Once

variable {α β : Type} [BEq α] [LawfulBEq α] [BEq β] [LawfulBEq β]

lemma eraseDups_concat (l : List α) (a : α) :
    (l ++ [a]).eraseDups = if a ∈ l then l.eraseDups else l.eraseDups ++ [a] := by
  rw [List.eraseDups_append]
  split
  · rename_i ha
    have hnone : [a].removeAll l = [] := by simp [List.removeAll, ha]
    rw [hnone, List.eraseDups_nil, List.append_nil]
  · rename_i ha
    have hself : [a].removeAll l = [a] := by simp [List.removeAll, ha]
    rw [hself]
    rfl

lemma nodup_eraseDups (l : List α) : l.eraseDups.Nodup := by
  induction l using List.reverseRecOn with
  | nil => exact List.nodup_nil
  | append_singleton l a ih =>
    rw [eraseDups_concat]
    split
    · exact ih
    · rename_i ha
      refine List.nodup_append.2 ⟨ih, by simp, fun b hb c hc he => ha ?_⟩
      rw [← List.mem_singleton.1 hc, ← he]
      exact List.mem_eraseDups.1 hb

lemma eraseDups_of_nodup {l : List α} (h : l.Nodup) : l.eraseDups = l := by
  induction l using List.reverseRecOn with
  | nil => rfl
  | append_singleton l a ih =>
    obtain ⟨hl, -, hne⟩ := List.nodup_append.1 h
    have ha : a ∉ l := fun ha => hne a ha a (by simp) rfl
    rw [eraseDups_concat, if_neg ha, ih hl]

/-- Images are repeated where the elements are, if different elements have different images. -/
lemma eraseDups_map {f : α → β} {l : List α} (hf : ∀ a ∈ l, ∀ b ∈ l, f a = f b → a = b) :
    (l.map f).eraseDups = l.eraseDups.map f := by
  induction l using List.reverseRecOn with
  | nil => rfl
  | append_singleton l a ih =>
    have hl : (l.map f).eraseDups = l.eraseDups.map f :=
      ih fun b hb c hc => hf b (List.mem_append_left _ hb) c (List.mem_append_left _ hc)
    have hmem : f a ∈ l.map f ↔ a ∈ l := by
      constructor
      · intro ha
        obtain ⟨b, hb, he⟩ := List.mem_map.1 ha
        rw [← hf b (List.mem_append_left _ hb) a (by simp) he]
        exact hb
      · exact List.mem_map_of_mem
    rw [List.map_append, List.map_singleton, eraseDups_concat, eraseDups_concat, hl]
    simp only [hmem]
    split
    · rfl
    · rw [List.map_append, List.map_singleton]

end Once

/-! ### Records of chosen names -/

/-- The cells of some names, each one once. -/
def Record.choose (names : List String) (record : Record ε) : Record ε :=
  names.eraseDups.map fun name => (name, record.cell name)

namespace Record

variable {names : List String} {record : Record ε}

lemma names_choose : (record.choose names).map Prod.fst = names.eraseDups := by
  rw [choose, List.map_map]
  exact List.map_id _

lemma cell_choose {name : String} (h : name ∈ names) :
    (record.choose names).cell name = record.cell name := by
  have hn : (names.eraseDups.map id).Nodup := by
    rw [List.map_id]
    exact Once.nodup_eraseDups names
  exact cell_map hn (List.mem_eraseDups.2 h)

lemma mem_of_mem_choose {entry : String × Cell ε} (h : entry ∈ record.choose names) :
    entry.1 ∈ names := by
  obtain ⟨name, hn, rfl⟩ := List.mem_map.1 h
  exact List.mem_eraseDups.1 hn

/-- A record with the given names is made of their cells. -/
lemma choose_eq_self (h : record.map Prod.fst = names.eraseDups) :
    record.choose names = record := by
  have hn : (record.map Prod.fst).Nodup := by
    rw [h]
    exact Once.nodup_eraseDups names
  rw [choose, ← h]
  exact map_cell record hn

/-- The name that a field has after one of them was renamed. -/
def newName (old new name : String) : String := if name = old then new else name

lemma rename_eq (old new : String) :
    record.rename old new = record.map fun entry => (newName old new entry.1, entry.2) := rfl

lemma names_rename (old new : String) :
    (record.rename old new).map Prod.fst = (record.map Prod.fst).map (newName old new) := by
  rw [rename_eq, List.map_map, List.map_map]
  rfl

lemma newName_ne {old new name other : String} (hnew : new ≠ other) (hname : name ≠ other) :
    newName old new name ≠ other := by
  rw [newName]
  split
  · exact hnew
  · exact hname

/-- With a new name that none of them has, names are repeated where they were. -/
lemma eraseDups_newName (old : String) {new : String} (h : new ∉ names) :
    (names.map (newName old new)).eraseDups = names.eraseDups.map (newName old new) := by
  refine Once.eraseDups_map fun a ha b hb hab => ?_
  have hfresh : ∀ name ∈ names, name ≠ new := by
    rintro name hn rfl
    exact h hn
  simp only [newName] at hab
  split at hab <;> split at hab
  · rename_i ha' hb'
    rw [ha', hb']
  · exact absurd hab.symm (hfresh b hb)
  · exact absurd hab (hfresh a ha)
  · exact hab

end Record

/-! ### Projections -/

namespace Header

variable {header : Header} {references : List String} {reference : String}
  {column : String × Option ScalarType}

/-- The names of the columns that references mean. -/
def meant (header : Header) (references : List String) : List String :=
  references.filterMap fun reference => (header.column? reference).map Prod.fst

lemma meant_cons (h : header.column? reference = some column) :
    header.meant (reference :: references) = column.1 :: header.meant references := by
  rw [meant, List.filterMap_cons, h]
  rfl

lemma meant_cons_of_none (h : header.column? reference = none) :
    header.meant (reference :: references) = header.meant references := by
  rw [meant, List.filterMap_cons, h]
  rfl

/-- A column is its name and the type under this name. -/
lemma eq_of_mem (hn : header.names.Nodup) (hc : column ∈ header) :
    column = (column.1, Record.cell header column.1) := by
  have h : Record.cell (header.map fun column => (column.1, column.2)) column.1 = column.2 :=
    Record.cell_map hn hc
  rw [show (header.map fun column => (column.1, column.2)) = header from List.map_id header] at h
  rw [h]

lemma type?_eq (hn : header.names.Nodup) (h : header.column? reference = some column) :
    header.type? reference = Record.cell header column.1 := by
  have hcolumn := eq_of_mem hn (column?_eq_some h).1
  rw [type?, h, hcolumn]
  rfl

lemma mem_names_of_meant {name : String} (h : name ∈ header.meant references) :
    name ∈ header.names := by
  obtain ⟨reference, -, hname⟩ := List.mem_filterMap.1 h
  obtain ⟨column, hc, rfl⟩ := Option.map_eq_some_iff.1 hname
  exact List.mem_map_of_mem (column?_eq_some hc).1

/-- What is chosen from a header are columns of it. -/
lemma choose_meant_subset (hn : header.names.Nodup) (references : List String) :
    Record.choose (header.meant references) header ⊆ header := by
  intro chosen hc
  obtain ⟨name, hname, rfl⟩ := List.mem_map.1 hc
  obtain ⟨column, hm, rfl⟩ := List.mem_map.1 (mem_names_of_meant (List.mem_eraseDups.1 hname))
  rw [← eq_of_mem hn hm]
  exact hm

lemma pick_from (hn : header.names.Nodup) (before : List String) :
    header.pick (Record.choose before header) references
      = Record.choose (before ++ header.meant references) header := by
  induction references generalizing before with
  | nil =>
    rw [meant, List.filterMap_nil, List.append_nil]
    rfl
  | cons reference rest ih =>
    rw [pick]
    split
    · rename_i column hc
      have hnext : before ++ column.1 :: header.meant rest
          = before ++ [column.1] ++ header.meant rest := by simp
      have hmem : column.1 ∈ names (Record.choose before header) ↔ column.1 ∈ before := by
        rw [names, Record.names_choose, List.mem_eraseDups]
      rw [meant_cons hc, hnext, ← ih]
      -- A column that was chosen before is not chosen again, whatever reference means it.
      by_cases hb : column.1 ∈ before
      · rw [if_pos (hmem.2 hb)]
        have hsame : Record.choose (before ++ [column.1]) header = Record.choose before header := by
          rw [Record.choose, Once.eraseDups_concat, if_pos hb]
          rfl
        rw [hsame]
      · rw [if_neg fun h => hb (hmem.1 h)]
        have hmore : Record.choose (before ++ [column.1]) header
            = Record.choose before header ++ [column] := by
          rw [Record.choose, Once.eraseDups_concat, if_neg hb, List.map_append, List.map_singleton,
            ← eq_of_mem hn (column?_eq_some hc).1]
          rfl
        rw [hmore]
    · rename_i hnone
      rw [meant_cons_of_none hnone]
      exact ih before

/-- The columns that are picked are those that are meant, each one once. -/
lemma pick_eq (hn : header.names.Nodup) :
    header.pick [] references = Record.choose (header.meant references) header :=
  pick_from hn []

end Header

/-- A projection chooses the names that are meant from the header and from every row. -/
lemma Listing.project_eq {listing : Listing δ} (hn : listing.header.names.Nodup)
    (fields : List String) :
    listing.project fields = ⟨Record.choose (listing.header.meant fields) listing.header,
      listing.rows.map (Record.choose (listing.header.meant fields))⟩ := by
  rw [project, Header.pick_eq hn]
  refine congrArg _ (List.map_congr_left fun record _ => ?_)
  rw [Record.restrict, Record.choose, List.map_map]
  rfl

end ObjectGraph
