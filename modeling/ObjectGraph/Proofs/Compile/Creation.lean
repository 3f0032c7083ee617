/-
# Tables in the order of their creation

A table can be created when the tables that its keys refer to are there.  Every step towards the
order takes one of the tables that remain and puts off those of its keys that refer to others of
them; a table that is ready has no such keys, so that one lemma describes a step whichever way the
table was found.  It comes with an induction, and from that follow the laws of the whole order: no
table is lost, no key is lost or given to another table, and every key that is declared with its
table refers to this table or to one that is there already.
-/
import ObjectGraph.Compile.Tables
import ObjectGraph.Proofs.Compile.Build
import Mathlib.Data.List.Forall2
import Mathlib.Tactic.Tauto

namespace ObjectGraph

open Sql (AddForeignKey CreateTable ForeignKey TableReference)

/-! ### Tables and keys -/

namespace Sql.CreateTable

/-- A table without its foreign keys. -/
def keyless (table : CreateTable) : CreateTable := { table with foreignKeys := [] }

/-- The foreign keys that a table declares, each with the table it belongs to. -/
def declared (table : CreateTable) : List AddForeignKey :=
  table.foreignKeys.map fun key => ⟨table.name, key⟩

end Sql.CreateTable

/-- The names of tables. -/
def tableNames (tables : List CreateTable) : List TableReference := tables.map (·.name)

/-- Tables that can be created one after the other: every key that one of them declares refers to
the table itself or to one that is there by then. -/
def Creatable : List TableReference → List CreateTable → Prop
  | _, [] => True
  | there, table :: rest =>
    (∀ key ∈ table.foreignKeys, key.table = table.name ∨ key.table ∈ there) ∧
      Creatable (table.name :: there) rest

namespace Compile

variable {there : List TableReference} {tables first second remaining others : List CreateTable}
  {table : CreateTable}

lemma creatable_of_there (h : ∀ table ∈ tables, ∀ key ∈ table.foreignKeys, key.table ∈ there) :
    Creatable there tables := by
  induction tables generalizing there with
  | nil => trivial
  | cons table rest ih =>
    obtain ⟨htable, hrest⟩ := List.forall_mem_cons.1 h
    refine ⟨fun key hk => .inr (htable key hk), ih fun other ho key hk => ?_⟩
    exact List.mem_cons_of_mem _ (hrest other ho key hk)

/-- Tables that refer only to tables before them can be created behind those. -/
lemma creatable_append (hf : Creatable there first)
    (hs : ∀ table ∈ second, ∀ key ∈ table.foreignKeys, key.table ∈ tableNames first ++ there) :
    Creatable there (first ++ second) := by
  induction first generalizing there with
  | nil => exact creatable_of_there hs
  | cons table rest ih =>
    refine ⟨hf.1, ih hf.2 fun other ho key hk => ?_⟩
    have hmem := hs other ho key hk
    simp only [tableNames, List.map_cons, List.cons_append, List.mem_cons,
      List.mem_append] at hmem ⊢
    tauto

/-! ### Steps of the order -/

lemma exists_of_extractFirst {α : Type} {test : α → Bool} {l rest : List α} {a : α}
    (h : extractFirst test l = some (a, rest)) :
    test a = true ∧ ∃ before behind, l = before ++ a :: behind ∧ rest = before ++ behind := by
  induction l generalizing rest with
  | nil => cases h
  | cons b tail ih =>
    simp only [extractFirst] at h
    split at h
    · rename_i htest
      obtain ⟨rfl, rfl⟩ := Prod.mk.inj (Option.some.inj h)
      exact ⟨htest, [], tail, rfl, rfl⟩
    · obtain ⟨⟨found, skipped⟩, hfound, heq⟩ := Option.map_eq_some_iff.1 h
      obtain ⟨rfl, rfl⟩ := Prod.mk.inj heq
      obtain ⟨htest, before, behind, rfl, rfl⟩ := ih hfound
      exact ⟨htest, b :: before, behind, rfl, rfl⟩

lemma append_subset_middle {α : Type} (before behind : List α) (a : α) :
    before ++ behind ⊆ before ++ a :: behind :=
  ((List.sublist_cons_self a behind).append_left before).subset

lemma extractFirst_eq_none {α : Type} {test : α → Bool} {l : List α}
    (h : extractFirst test l = none) : ∀ a ∈ l, test a = false := by
  induction l with
  | nil => simp
  | cons b tail ih =>
    simp only [extractFirst] at h
    split at h
    · cases h
    · rename_i htest
      exact List.forall_mem_cons.2 ⟨by simpa using htest, ih (Option.map_eq_none_iff.1 h)⟩

lemma waitsOn_iff {key : ForeignKey} : waitsOn remaining table key = true ↔
    key.table ≠ table.name ∧ key.table ∈ tableNames remaining := by
  simp [waitsOn, tableNames]

lemma waitsOn_mono {key : ForeignKey} (hs : others ⊆ remaining)
    (h : waitsOn others table key = true) : waitsOn remaining table key = true := by
  obtain ⟨hne, hmem⟩ := waitsOn_iff.1 h
  exact waitsOn_iff.2 ⟨hne, List.map_subset _ hs hmem⟩

/-- No key of a table that is ready waits on tables that remain. -/
lemma waitsOn_of_isReady {key : ForeignKey} (hs : others ⊆ remaining)
    (h : isReady remaining table = true) (hk : key ∈ table.foreignKeys) :
    waitsOn others table key = false := by
  have hkey := List.all_eq_true.1 h key hk
  cases hwaits : waitsOn others table key with
  | false => rfl
  | true =>
    rw [waitsOn_mono hs hwaits] at hkey
    cases hkey

/-- A table that is ready has no key to put off. -/
lemma defer_of_isReady (hs : others ⊆ remaining) (h : isReady remaining table = true) :
    defer others table = (table, []) := by
  have hnone : ∀ key ∈ table.foreignKeys, waitsOn others table key = false :=
    fun key hk => waitsOn_of_isReady hs h hk
  have hkept : table.foreignKeys.filter (!waitsOn others table ·) = table.foreignKeys :=
    List.filter_eq_self.2 fun key hk => by simp [hnone key hk]
  have hdeferred : table.foreignKeys.filter (waitsOn others table ·) = [] :=
    List.filter_eq_nil_iff.2 fun key hk => by simp [hnone key hk]
  rw [defer, hkept, hdeferred]
  rfl

/-- A step creates one of the tables that remain, without its keys to the others. -/
lemma dependencyOrder_step (hne : remaining ≠ []) : ∃ table others,
    remaining.Perm (table :: others) ∧
      dependencyOrder remaining = ((defer others table).1 :: (dependencyOrder others).1,
        (defer others table).2 ++ (dependencyOrder others).2) := by
  rw [dependencyOrder.eq_def]
  split
  · rename_i table others hextract
    obtain ⟨hready, before, behind, rfl, rfl⟩ := exists_of_extractFirst hextract
    have hperm : (before ++ table :: behind).Perm (table :: (before ++ behind)) :=
      List.perm_middle
    refine ⟨table, before ++ behind, hperm, ?_⟩
    rw [defer_of_isReady (append_subset_middle before behind table) hready]
    rfl
  · split
    · exact absurd rfl hne
    · rename_i first others _ _
      exact ⟨first, others, .refl _, rfl⟩

/-- What every step keeps holds of the whole order. -/
lemma dependencyOrder_induction
    {P : List CreateTable → List CreateTable → List AddForeignKey → Prop} (nil : P [] [] [])
    (step : ∀ {remaining table others ordered added}, remaining.Perm (table :: others) →
      P others ordered added →
        P remaining ((defer others table).1 :: ordered) ((defer others table).2 ++ added))
    (remaining : List CreateTable) :
    P remaining (dependencyOrder remaining).1 (dependencyOrder remaining).2 := by
  -- Which table a step takes is not known, only that one fewer remains.
  induction hlen : remaining.length using Nat.strongRecOn generalizing remaining with
  | ind n ih =>
    by_cases hne : remaining = []
    · subst hne
      rw [dependencyOrder]
      exact nil
    · obtain ⟨table, others, hperm, horder⟩ := dependencyOrder_step hne
      have hshorter : others.length < n := by
        rw [← hlen, hperm.length_eq]
        exact Nat.lt_succ_self _
      rw [horder]
      exact step hperm (ih _ hshorter others rfl)

/-! ### What the order keeps -/

lemma keyless_defer (others : List CreateTable) (table : CreateTable) :
    (defer others table).1.keyless = table.keyless := rfl

/-- The keys that are put off and those that are kept are the keys of the table. -/
lemma perm_declared_defer (others : List CreateTable) (table : CreateTable) :
    ((defer others table).1.declared ++ (defer others table).2).Perm table.declared := by
  have hkeys := (List.filter_append_perm (waitsOn others table ·) table.foreignKeys).map
    fun key => (⟨table.name, key⟩ : AddForeignKey)
  rw [List.map_append] at hkeys
  exact List.perm_append_comm.trans hkeys

/-- No table is lost or made twice. -/
lemma perm_dependencyOrder (remaining : List CreateTable) :
    ((dependencyOrder remaining).1.map CreateTable.keyless).Perm
      (remaining.map CreateTable.keyless) := by
  refine dependencyOrder_induction
    (P := fun remaining ordered _ =>
      (ordered.map CreateTable.keyless).Perm (remaining.map CreateTable.keyless))
    (.refl _) ?_ remaining
  intro remaining table others ordered added hperm ih
  rw [List.map_cons, keyless_defer]
  exact (ih.cons _).trans (hperm.map CreateTable.keyless).symm

lemma perm_tableNames (remaining : List CreateTable) :
    (tableNames (dependencyOrder remaining).1).Perm (tableNames remaining) := by
  have h := (perm_dependencyOrder remaining).map (·.name)
  rw [List.map_map, List.map_map] at h
  exact h

/-- No key is lost, declared twice or given to another table. -/
lemma perm_declared_dependencyOrder (remaining : List CreateTable) :
    ((dependencyOrder remaining).1.flatMap CreateTable.declared
      ++ (dependencyOrder remaining).2).Perm (remaining.flatMap CreateTable.declared) := by
  refine dependencyOrder_induction
    (P := fun remaining ordered added =>
      (ordered.flatMap CreateTable.declared ++ added).Perm (remaining.flatMap CreateTable.declared))
    (.refl _) ?_ remaining
  intro remaining table others ordered added hperm ih
  have hremaining := hperm.flatMap_right CreateTable.declared
  rw [List.flatMap_cons] at hremaining ⊢
  refine List.Perm.trans ?_ hremaining.symm
  -- The keys that are put off move in front of those that the later tables declare.
  have hmove : ((defer others table).1.declared ++ ordered.flatMap CreateTable.declared ++
      ((defer others table).2 ++ added)).Perm
        ((defer others table).1.declared ++ (defer others table).2 ++
          (ordered.flatMap CreateTable.declared ++ added)) := by
    rw [List.append_assoc, List.append_assoc]
    refine List.Perm.append_left _ ?_
    rw [← List.append_assoc, ← List.append_assoc]
    exact List.perm_append_comm.append_right _
  exact hmove.trans ((perm_declared_defer others table).append ih)

/-- Every key refers to a table that is there or to one of those that remain. -/
def Closed (there : List TableReference) (remaining : List CreateTable) : Prop :=
  ∀ table ∈ remaining, ∀ key ∈ table.foreignKeys,
    key.table ∈ there ∨ key.table ∈ tableNames remaining

/-- A table without the keys that it puts off refers to itself or to what is there. -/
lemma refers_of_mem_defer (hperm : remaining.Perm (table :: others))
    (hclosed : Closed there remaining) {key : ForeignKey}
    (hk : key ∈ (defer others table).1.foreignKeys) :
    key.table = table.name ∨ key.table ∈ there := by
  obtain ⟨hkey, hwaits⟩ := List.mem_filter.1 hk
  rcases hclosed table (hperm.mem_iff.2 List.mem_cons_self) key hkey with hthere | hname
  · exact .inr hthere
  · have hmem : key.table ∈ tableNames (table :: others) := (hperm.map (·.name)).mem_iff.1 hname
    rcases List.mem_cons.1 hmem with hself | hother
    · exact .inl hself
    · by_cases hself : key.table = table.name
      · exact .inl hself
      · -- A key to a table that still remains would have been put off.
        have htrue : waitsOn others table key = true := waitsOn_iff.2 ⟨hself, hother⟩
        rw [htrue] at hwaits
        cases hwaits

lemma Closed.step (hperm : remaining.Perm (table :: others)) (h : Closed there remaining) :
    Closed (table.name :: there) others := by
  intro other ho key hk
  rcases h other (hperm.mem_iff.2 (List.mem_cons_of_mem _ ho)) key hk with hthere | hname
  · exact .inl (List.mem_cons_of_mem _ hthere)
  · have hmem : key.table ∈ tableNames (table :: others) := (hperm.map (·.name)).mem_iff.1 hname
    rcases List.mem_cons.1 hmem with hself | hother
    · exact .inl (hself ▸ List.mem_cons_self)
    · exact .inr hother

lemma creatable_dependencyOrder (h : Closed there remaining) :
    Creatable there (dependencyOrder remaining).1 := by
  refine dependencyOrder_induction
    (P := fun remaining ordered _ => ∀ there, Closed there remaining → Creatable there ordered)
    (fun _ _ => trivial) ?_ remaining there h
  intro remaining table others ordered added hperm ih there hclosed
  have hlater : Creatable (table.name :: there) ordered := ih _ (hclosed.step hperm)
  exact ⟨fun key hk => refers_of_mem_defer hperm hclosed hk, hlater⟩

/-! ### The tables of a catalog -/

section Gathering

variable {ι γ κ ε : Type} {whole : List ι → Except ε (List κ)} {l : List ι} {gathered : List κ}
  (each : ι → Except ε γ) (parts : γ → List κ)

/-- What is gathered along a list comes from one of its elements. -/
lemma mem_gathered (nil : whole [] = pure [])
    (cons : ∀ i rest, whole (i :: rest) = do
      let a ← each i
      return parts a ++ (← whole rest))
    (h : whole l = .ok gathered) {k : κ} :
    k ∈ gathered ↔ ∃ i ∈ l, ∃ a, each i = .ok a ∧ k ∈ parts a := by
  induction l generalizing gathered with
  | nil =>
    rw [nil] at h
    obtain rfl := pure_eq_ok.1 h
    simp
  | cons i rest ih =>
    rw [cons] at h
    obtain ⟨a, ha, h⟩ := bind_eq_ok.1 h
    obtain ⟨others, hothers, h⟩ := bind_eq_ok.1 h
    obtain rfl := pure_eq_ok.1 h
    have hhead : (∃ b, each i = .ok b ∧ k ∈ parts b) ↔ k ∈ parts a := by simp [ha]
    rw [List.mem_append, ih hothers, List.exists_mem_cons_iff, hhead]

/-- What is known of each element before anything is gathered is known of all that is. -/
lemma map_gathered {δ : Type} {f : κ → δ} {g : ι → List δ} (nil : whole [] = pure [])
    (cons : ∀ i rest, whole (i :: rest) = do
      let a ← each i
      return parts a ++ (← whole rest))
    (hg : ∀ i a, each i = .ok a → (parts a).map f = g i) (h : whole l = .ok gathered) :
    gathered.map f = l.flatMap g := by
  induction l generalizing gathered with
  | nil =>
    rw [nil] at h
    obtain rfl := pure_eq_ok.1 h
    rfl
  | cons i rest ih =>
    rw [cons] at h
    obtain ⟨a, ha, h⟩ := bind_eq_ok.1 h
    obtain ⟨others, hothers, h⟩ := bind_eq_ok.1 h
    obtain rfl := pure_eq_ok.1 h
    rw [List.map_append, hg i a ha, ih hothers, List.flatMap_cons]

end Gathering

variable {catalog : Catalog} {name : String} {type : ObjectType} {edge : Edge}
  {edges : List (String × Edge)} {entries : List (String × ObjectType)} {key : ForeignKey}

/-- The names of the tables of all object types. -/
def objectTableNames (catalog : Catalog) : List TableReference :=
  catalog.types.entries.map fun entry => .stored (tableName entry.2)

lemma tableName_mem (h : catalog.requireType name = .ok type) :
    .stored (tableName type) ∈ objectTableNames catalog := by
  have hm : (name, type) ∈ catalog.types.entries := Named.mem_of_lookup (requireType_ok.1 h)
  exact List.mem_map_of_mem
    (f := fun entry : String × ObjectType => TableReference.stored (tableName entry.2)) hm

/-- The foreign key of an edge refers to the table of the type that the edge leads to. -/
lemma foreignKey?_refers (h : foreignKey? catalog name type edge = .ok (some key)) :
    key.table ∈ objectTableNames catalog := by
  unfold foreignKey? at h
  split at h
  · obtain ⟨target, ht, h⟩ := bind_eq_ok.1 h
    split at h
    · cases h
    · obtain ⟨column, -, h⟩ := bind_eq_ok.1 h
      obtain ⟨identity, -, h⟩ := bind_eq_ok.1 h
      obtain rfl := Option.some.inj (pure_eq_ok.1 h)
      exact tableName_mem ht
  · cases h

/-- The foreign keys of a type are those of its edges. -/
lemma mem_foreignKeys {keys : List ForeignKey}
    (h : foreignKeys catalog name type edges = .ok keys) :
    key ∈ keys ↔ ∃ entry ∈ edges, foreignKey? catalog name type entry.2 = .ok (some key) := by
  have hkeys := mem_gathered (fun entry : String × Edge => foreignKey? catalog name type entry.2)
    Option.toList rfl (fun _ _ => rfl) h (k := key)
  simpa using hkeys

lemma objectTable_ok (h : objectTable catalog name type = .ok table) :
    table.name = .stored (tableName type) ∧
      foreignKeys catalog name type type.edges.entries = .ok table.foreignKeys := by
  obtain ⟨identity, -, h⟩ := bind_eq_ok.1 h
  obtain ⟨keys, hkeys, h⟩ := bind_eq_ok.1 h
  obtain rfl := pure_eq_ok.1 h
  exact ⟨rfl, hkeys⟩

/-- The tables of object types, one for each of them. -/
def Built (catalog : Catalog) : List (String × ObjectType) → List CreateTable → Prop :=
  List.Forall₂ fun entry table => objectTable catalog entry.1 entry.2 = .ok table

lemma objectTables_ok (h : objectTables catalog entries = .ok tables) :
    Built catalog entries tables := by
  induction entries generalizing tables with
  | nil =>
    obtain rfl := pure_eq_ok.1 h
    exact .nil
  | cons entry rest ih =>
    obtain ⟨table, htable, h⟩ := bind_eq_ok.1 h
    obtain ⟨others, hothers, h⟩ := bind_eq_ok.1 h
    obtain rfl := pure_eq_ok.1 h
    exact .cons htable (ih hothers)

lemma Built.tableNames_eq (h : Built catalog entries tables) :
    tableNames tables = entries.map fun entry => .stored (tableName entry.2) := by
  induction h with
  | nil => rfl
  | cons htable _ ih =>
    have hname := (objectTable_ok htable).1
    simp only [tableNames, List.map_cons] at ih ⊢
    rw [hname, ih]

/-- Keys of object types refer to tables of object types. -/
lemma Built.refer (h : Built catalog entries tables) :
    ∀ table ∈ tables, ∀ key ∈ table.foreignKeys, key.table ∈ objectTableNames catalog := by
  induction h with
  | nil =>
    intro table ht
    cases ht
  | cons htable _ ih =>
    refine List.forall_mem_cons.2 ⟨fun key hk => ?_, ih⟩
    obtain ⟨entry, -, hkey⟩ := (mem_foreignKeys (objectTable_ok htable).2).1 hk
    exact foreignKey?_refers hkey

/-! ### The tables of pairs -/

lemma associationTable?_refers (hname : .stored (tableName type) ∈ objectTableNames catalog)
    (h : associationTable? catalog name type edge = .ok (some table)) :
    ∀ key ∈ table.foreignKeys, key.table ∈ objectTableNames catalog := by
  unfold associationTable? at h
  split at h
  · cases h
  · obtain ⟨reached, hreached, h⟩ := bind_eq_ok.1 h
    obtain ⟨source, -, h⟩ := bind_eq_ok.1 h
    obtain ⟨target, -, h⟩ := bind_eq_ok.1 h
    obtain rfl := Option.some.inj (pure_eq_ok.1 h)
    intro key hk
    rcases List.mem_pair.1 hk with rfl | rfl
    · exact hname
    · exact tableName_mem hreached

/-- The tables of pairs of a type are those that its edges go through. -/
lemma mem_associationTables (h : associationTables catalog name type edges = .ok tables) :
    table ∈ tables ↔
      ∃ entry ∈ edges, associationTable? catalog name type entry.2 = .ok (some table) := by
  have htables := mem_gathered
    (fun entry : String × Edge => associationTable? catalog name type entry.2) Option.toList rfl
    (fun _ _ => rfl) h (k := table)
  simpa using htables

lemma mem_allAssociationTables (h : allAssociationTables catalog entries = .ok tables) :
    table ∈ tables ↔ ∃ entry ∈ entries, ∃ pairs,
      associationTables catalog entry.1 entry.2 entry.2.edges.entries = .ok pairs ∧
        table ∈ pairs :=
  mem_gathered (fun entry : String × ObjectType =>
    associationTables catalog entry.1 entry.2 entry.2.edges.entries) id rfl (fun _ _ => rfl) h

/-- Every table of pairs is one that an edge goes through. -/
lemma exists_edge_of_association (h : allAssociationTables catalog entries = .ok tables)
    (ht : table ∈ tables) : ∃ entry ∈ entries, ∃ edge ∈ entry.2.edges.entries,
      associationTable? catalog entry.1 entry.2 edge.2 = .ok (some table) := by
  obtain ⟨entry, he, pairs, hpairs, hm⟩ := (mem_allAssociationTables h).1 ht
  exact ⟨entry, he, (mem_associationTables hpairs).1 hm⟩

lemma allAssociationTables_refer
    (hnames : ∀ entry ∈ entries, .stored (tableName entry.2) ∈ objectTableNames catalog)
    (h : allAssociationTables catalog entries = .ok tables) :
    ∀ table ∈ tables, ∀ key ∈ table.foreignKeys, key.table ∈ objectTableNames catalog := by
  intro table ht
  obtain ⟨entry, he, edge, -, hedge⟩ := exists_edge_of_association h ht
  exact associationTable?_refers (hnames entry he) hedge

lemma firstOfName_subset (seen : List TableReference) (tables : List CreateTable) :
    firstOfName seen tables ⊆ tables := by
  induction tables generalizing seen with
  | nil => exact List.nil_subset _
  | cons table rest ih =>
    rw [firstOfName]
    split
    · exact List.subset_cons_of_subset _ (ih seen)
    · exact List.cons_subset_cons _ (ih _)

/-! ### All statements -/

/-- Statements that create the tables of a catalog: first all tables, each after those that its
keys refer to, then the keys that were put off.  The tables of object types are those that were
built, and so are their keys. -/
structure Creates (catalog : Catalog) (built associations ordered : List CreateTable)
    (added : List AddForeignKey) (statements : List String) : Prop where
  made : createTables catalog = .ok (ordered ++ firstOfName [] associations, added)
  of_types : Built catalog catalog.types.entries built
  of_pairs : allAssociationTables catalog catalog.types.entries = .ok associations
  run : statements =
    (ordered ++ firstOfName [] associations).map (·.text) ++ added.map (·.text)
  creatable : Creatable [] (ordered ++ firstOfName [] associations)
  addable : ∀ addition ∈ added,
    addition.table ∈ tableNames ordered ∧ addition.key.table ∈ tableNames ordered
  perm_tables : (ordered.map CreateTable.keyless).Perm (built.map CreateTable.keyless)
  perm_keys : (ordered.flatMap CreateTable.declared ++ added).Perm
    (built.flatMap CreateTable.declared)

/-- The statements for a catalog can be run in their order, and they neither lose nor repeat a
table or a foreign key of an object type. -/
theorem tableStatements_creates {statements : List String}
    (h : tableStatements catalog = .ok statements) :
    ∃ built associations ordered added,
      Creates catalog built associations ordered added statements := by
  obtain ⟨⟨tables, added⟩, hmade, h⟩ := bind_eq_ok.1 h
  obtain rfl := pure_eq_ok.1 h
  obtain ⟨built, hbuilt, hcreate⟩ := bind_eq_ok.1 hmade
  obtain ⟨associations, hassociations, hcreate⟩ := bind_eq_ok.1 hcreate
  obtain ⟨rfl, rfl⟩ := Prod.mk.inj (pure_eq_ok.1 hcreate)
  have hall : Built catalog catalog.types.entries built := objectTables_ok hbuilt
  have hnames : tableNames built = objectTableNames catalog := hall.tableNames_eq
  have hmem : ∀ name, name ∈ tableNames (dependencyOrder built).1 ↔
      name ∈ objectTableNames catalog := by
    intro name
    rw [(perm_tableNames built).mem_iff, hnames]
  have hkeys := perm_declared_dependencyOrder built
  refine ⟨built, associations, _, _, hmade, hall, hassociations, rfl, ?_, ?_,
    perm_dependencyOrder built, hkeys⟩
  · refine creatable_append (creatable_dependencyOrder fun table ht key hk => ?_) ?_
    · exact .inr (hnames ▸ hall.refer table ht key hk)
    · intro table ht key hk
      have hobject := allAssociationTables_refer
        (fun entry he => List.mem_map_of_mem
          (f := fun entry => TableReference.stored (tableName entry.2)) he)
        hassociations table (firstOfName_subset _ _ ht) key hk
      exact List.mem_append_left _ ((hmem _).2 hobject)
  · intro addition ha
    -- A key that was put off is one of those that the tables were built with.
    obtain ⟨table, ht, hd⟩ := List.mem_flatMap.1 (hkeys.mem_iff.1 (List.mem_append_right _ ha))
    obtain ⟨key, hk, rfl⟩ := List.mem_map.1 hd
    refine ⟨(hmem _).2 ?_, (hmem _).2 (hall.refer table ht key hk)⟩
    rw [← hnames]
    exact List.mem_map_of_mem ht

/-! ### A circle of references -/

/-- Accounts and profiles that refer to each other. -/
def circle : Catalog :=
  let account := ObjectType.named "Account"
    |>.withField "id" .bigint false
    |>.withField "profile_id" .bigint true
    |>.withEdge "profile"
      { target := "Profile", cardinality := .one,
        join := .columns (.ofList [("profile_id", "id")]) }
  let profile := ObjectType.named "Profile"
    |>.withField "id" .bigint false
    |>.withField "account_id" .bigint true
    |>.withEdge "account"
      { target := "Account", cardinality := .one,
        join := .columns (.ofList [("account_id", "id")]) }
  Catalog.empty |>.withType "Account" account |>.withType "Profile" profile

/-- The first table of a circle gets its key to the second one in the end. -/
def circleStatements : List String :=
  ["CREATE TABLE \"account\" (\"id\" bigint NOT NULL, \"profile_id\" bigint, PRIMARY KEY (\"id\"))",
   "CREATE TABLE \"profile\" (\"id\" bigint NOT NULL, \"account_id\" bigint, PRIMARY KEY (\"id\"), "
      ++ "FOREIGN KEY (\"account_id\") REFERENCES \"account\" (\"id\"))",
   "ALTER TABLE \"account\" ADD FOREIGN KEY (\"profile_id\") REFERENCES \"profile\" (\"id\")"]

theorem tableStatements_creates_circle : tableStatements circle = .ok circleStatements ∧
    ∃ built associations ordered added,
      Creates circle built associations ordered added circleStatements := by
  have h : tableStatements circle = .ok circleStatements := by decide +kernel
  exact ⟨h, tableStatements_creates h⟩

end Compile
end ObjectGraph
