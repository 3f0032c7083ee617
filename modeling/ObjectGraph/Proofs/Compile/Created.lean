/-
# The tables that are created

Which tables are created, and how their keys fit together.  A table is created once for the object
type that is mapped to it and once for all edges that go through it; so one that is mapped and gone
through is created twice.  Keys are put off, but never changed: a table that is created has the
columns and the primary key that it was built with, and every foreign key is one that some table was
built with.  Hence what is known of the keys of a table when it is built holds of the keys that are
declared with it and of those that are added later.
-/
import ObjectGraph.Proofs.Compile.Creation
import ObjectGraph.Proofs.Named
import ObjectGraph.Samples.SocialGraph
import Mathlib.Data.List.Nodup

namespace ObjectGraph

open Sql (AddForeignKey CreateTable ForeignKey TableReference)

/-! ### Keys that fit -/

namespace Sql

/-- Every column of the primary key is a column of the table and cannot be null. -/
def CreateTable.HasPrimaryKey (table : CreateTable) : Prop :=
  ∀ name ∈ table.primaryKey, ∃ column ∈ table.columns, column.name = name ∧ column.notNull = true

/-- A foreign key of a table refers from columns of this table, one by one, to the primary key of
one of the tables that are created. -/
structure ForeignKey.Fits (tables : List CreateTable) (table : CreateTable) (key : ForeignKey) :
    Prop where
  declared : ∀ name ∈ key.columns, ∃ column ∈ table.columns, column.name = name
  length_eq : key.columns.length = key.referenced.length
  referenced : ∃ target ∈ tables, target.name = key.table ∧ target.primaryKey = key.referenced

/-- The keys of a table fit. -/
structure CreateTable.KeysFit (tables : List CreateTable) (table : CreateTable) : Prop where
  primary : table.HasPrimaryKey
  foreign : ∀ key ∈ table.foreignKeys, key.Fits tables table

variable {tables others : List CreateTable} {table other : CreateTable} {key : ForeignKey}

lemma CreateTable.keyless_eq_iff : table.keyless = other.keyless ↔ table.name = other.name ∧
    table.columns = other.columns ∧ table.primaryKey = other.primaryKey := by
  simp [CreateTable.keyless]

/-- Whether a foreign key fits is a matter of names, columns and primary keys. -/
lemma ForeignKey.Fits.congr (h : key.Fits tables table) (ht : table.keyless = other.keyless)
    (hs : tables.map CreateTable.keyless ⊆ others.map CreateTable.keyless) :
    key.Fits others other := by
  obtain ⟨target, hmem, hname, hkey⟩ := h.referenced
  obtain ⟨found, hfound, heq⟩ := List.mem_map.1 (hs (List.mem_map_of_mem hmem))
  obtain ⟨hname', -, hkey'⟩ := CreateTable.keyless_eq_iff.1 heq
  exact {
    declared := (CreateTable.keyless_eq_iff.1 ht).2.1 ▸ h.declared
    length_eq := h.length_eq
    referenced := ⟨found, hfound, hname'.trans hname, hkey'.trans hkey⟩ }

lemma CreateTable.HasPrimaryKey.congr (h : table.HasPrimaryKey)
    (ht : table.keyless = other.keyless) : other.HasPrimaryKey := by
  obtain ⟨-, hcolumns, hkey⟩ := CreateTable.keyless_eq_iff.1 ht
  rwa [CreateTable.HasPrimaryKey, hcolumns, hkey] at h

end Sql

namespace Compile

variable {catalog : Catalog} {name : String} {type : ObjectType} {edge : Edge}
  {tables built associations remaining : List CreateTable} {table : CreateTable}
  {added : List AddForeignKey} {addition : AddForeignKey} {entries : List (String × ObjectType)}
  {edges : List (String × Edge)} {key : ForeignKey}

/-! ### Tables of pairs -/

/-- The name of the table of pairs that a join goes through. -/
def pairTableName? : Join → Option TableReference
  | .columns _ => none
  | .through schema table _ _ => some (.stored ⟨schema, table⟩)

/-- The names of the tables that edges go through, one for each edge that goes through one. -/
def pairTableNames (catalog : Catalog) : List TableReference :=
  catalog.types.entries.flatMap fun entry =>
    entry.2.edges.entries.flatMap fun edge => (pairTableName? edge.2.join).toList

lemma associationTable?_ok (h : associationTable? catalog name type edge = .ok (some table)) :
    ∃ source target sourceIdentity targetIdentity reached,
      catalog.type? edge.target = some reached ∧ type.identity? = some sourceIdentity ∧
      reached.identity? = some targetIdentity ∧
      table.columns = [pairColumn source sourceIdentity, pairColumn target targetIdentity] ∧
      table.primaryKey = [source, target] ∧
      table.foreignKeys =
        [pairKey source type sourceIdentity, pairKey target reached targetIdentity] := by
  unfold associationTable? at h
  split at h
  · cases h
  · rename_i schema pairs source target hjoin
    obtain ⟨reached, hreached, h⟩ := bind_eq_ok.1 h
    obtain ⟨sourceIdentity, hsource, h⟩ := bind_eq_ok.1 h
    obtain ⟨targetIdentity, htarget, h⟩ := bind_eq_ok.1 h
    obtain rfl := Option.some.inj (pure_eq_ok.1 h)
    exact ⟨source, target, sourceIdentity, targetIdentity, reached, requireType_ok.1 hreached,
      requireIdentity_ok.1 hsource, requireIdentity_ok.1 htarget, rfl, rfl, rfl⟩

lemma associationTable?_name {table? : Option CreateTable}
    (h : associationTable? catalog name type edge = .ok table?) :
    tableNames table?.toList = (pairTableName? edge.join).toList := by
  unfold associationTable? at h
  split at h
  · rename_i hjoin
    obtain rfl := pure_eq_ok.1 h
    rw [hjoin]
    rfl
  · rename_i hjoin
    obtain ⟨reached, -, h⟩ := bind_eq_ok.1 h
    obtain ⟨source, -, h⟩ := bind_eq_ok.1 h
    obtain ⟨target, -, h⟩ := bind_eq_ok.1 h
    obtain rfl := pure_eq_ok.1 h
    rw [hjoin]
    rfl

lemma tableNames_associationTables (h : associationTables catalog name type edges = .ok tables) :
    tableNames tables = edges.flatMap fun edge => (pairTableName? edge.2.join).toList :=
  map_gathered (fun entry : String × Edge => associationTable? catalog name type entry.2)
    Option.toList rfl (fun _ _ => rfl) (fun _ _ => associationTable?_name) h

/-- The tables of pairs have the names of the tables that edges go through. -/
lemma tableNames_allAssociationTables
    (h : allAssociationTables catalog catalog.types.entries = .ok tables) :
    tableNames tables = pairTableNames catalog :=
  map_gathered (fun entry : String × ObjectType =>
    associationTables catalog entry.1 entry.2 entry.2.edges.entries) id rfl (fun _ _ => rfl)
    (fun _ _ => tableNames_associationTables) h

/-! ### How often a table is created -/

/-- Of the tables of one name only the first is kept. -/
lemma count_firstOfName (seen : List TableReference) (name : TableReference) :
    (tableNames (firstOfName seen tables)).count name =
      if name ∈ tableNames tables ∧ name ∉ seen then 1 else 0 := by
  induction tables generalizing seen with
  | nil => rfl
  | cons table rest ih =>
    have hcons : name ∈ tableNames (table :: rest) ↔ name = table.name ∨ name ∈ tableNames rest :=
      List.mem_cons
    rw [firstOfName]
    split
    · rename_i hseen
      rw [ih]
      refine if_congr ?_ rfl rfl
      rw [hcons]
      refine and_congr_left fun hnew => (or_iff_right ?_).symm
      rintro rfl
      exact hnew hseen
    · rename_i hnew
      have hcount : (tableNames (table :: firstOfName (table.name :: seen) rest)).count name =
          (tableNames (firstOfName (table.name :: seen) rest)).count name
            + if table.name == name then 1 else 0 := List.count_cons
      rw [hcount, ih]
      by_cases heq : name = table.name
      · subst heq
        simp [hcons, hnew]
      · simp [hcons, heq, Ne.symm heq]

lemma count_tableNames (h : createTables catalog = .ok (tables, added)) (name : TableReference) :
    (tableNames tables).count name = (objectTableNames catalog).count name
      + if name ∈ pairTableNames catalog then 1 else 0 := by
  obtain ⟨built, hbuilt, h⟩ := bind_eq_ok.1 h
  obtain ⟨associations, hassociations, h⟩ := bind_eq_ok.1 h
  obtain ⟨rfl, -⟩ := Prod.mk.inj (pure_eq_ok.1 h)
  have hobjects : (tableNames (dependencyOrder built).1).count name =
      (objectTableNames catalog).count name := by
    rw [(perm_tableNames built).count_eq, (objectTables_ok hbuilt).tableNames_eq]
    rfl
  have happend : tableNames ((dependencyOrder built).1 ++ firstOfName [] associations) =
      tableNames (dependencyOrder built).1 ++ tableNames (firstOfName [] associations) :=
    List.map_append
  rw [happend, List.count_append, hobjects, count_firstOfName,
    tableNames_allAssociationTables hassociations]
  simp

/-- With one table for every object type, a table is created once for the type that is mapped to it
and once for all edges that go through it; so no table is created twice exactly if no edge goes
through the table of an object type. -/
theorem nodup_tableNames_iff (h : createTables catalog = .ok (tables, added))
    (hn : (objectTableNames catalog).Nodup) :
    (∀ name, (tableNames tables).count name =
      (if name ∈ objectTableNames catalog then 1 else 0)
        + if name ∈ pairTableNames catalog then 1 else 0) ∧
    ((tableNames tables).Nodup ↔
      (objectTableNames catalog).Disjoint (pairTableNames catalog)) := by
  have hcount : ∀ name, (tableNames tables).count name =
      (if name ∈ objectTableNames catalog then 1 else 0)
        + if name ∈ pairTableNames catalog then 1 else 0 := by
    intro name
    rw [count_tableNames h, hn.count]
  refine ⟨hcount, ?_⟩
  rw [List.nodup_iff_count_le_one]
  constructor
  · intro hle name hobject hpair
    have hname := hle name
    rw [hcount, if_pos hobject, if_pos hpair] at hname
    omega
  · intro hdisjoint name
    rw [hcount]
    by_cases hobject : name ∈ objectTableNames catalog
    · have hpair : name ∉ pairTableNames catalog := fun hpair => hdisjoint hobject hpair
      simp [hobject, hpair]
    · rw [if_neg hobject]
      split <;> omega

theorem nodup_tableNames_iff_social :
    ∃ tables added, createTables SocialGraph.catalog = .ok (tables, added) ∧
      (objectTableNames SocialGraph.catalog).Nodup ∧
      (∀ name, (tableNames tables).count name =
        (if name ∈ objectTableNames SocialGraph.catalog then 1 else 0)
          + if name ∈ pairTableNames SocialGraph.catalog then 1 else 0) ∧
      ((tableNames tables).Nodup ↔
        (objectTableNames SocialGraph.catalog).Disjoint (pairTableNames SocialGraph.catalog)) := by
  have hok : (createTables SocialGraph.catalog).isOk = true := by decide +kernel
  have hn : (objectTableNames SocialGraph.catalog).Nodup := by decide +kernel
  obtain ⟨⟨tables, added⟩, h⟩ := exists_of_isOk hok
  exact ⟨tables, added, h, hn, nodup_tableNames_iff h hn⟩

/-- Users whose friends are found through friendships, which are objects of their own. -/
def friendships : Catalog :=
  let friendship := ObjectType.named "Friendship"
    |>.withTable "friendships"
    |>.withField "id" .bigint false
    |>.withField "user_id" .bigint true
    |>.withField "friend_id" .bigint true
  let user := ObjectType.named "User"
    |>.withField "id" .bigint false
    |>.withEdge "friends"
      { target := "User", cardinality := .many,
        join := .through none "friendships" "user_id" "friend_id" }
  Catalog.empty |>.withType "Friendship" friendship |>.withType "User" user

/-- The table of the friendships is created for the object type and for the edge. -/
theorem not_nodup_tableNames_friendships :
    ∃ tables added, createTables friendships = .ok (tables, added) ∧
      (objectTableNames friendships).Nodup ∧ ¬ (tableNames tables).Nodup := by
  have hnames : (createTables friendships).map (fun made => tableNames made.1) =
      .ok (["friendships", "user", "friendships"].map fun name => .stored ⟨none, name⟩) := by
    decide +kernel
  obtain ⟨⟨tables, added⟩, h, heq⟩ := map_eq_ok.1 hnames
  refine ⟨tables, added, h, by decide +kernel, ?_⟩
  rw [show tableNames tables = _ from heq]
  decide

/-! ### Keys of tables of objects -/

/-- The column of a field that a foreign key starts from is one of the columns of the table. -/
lemma keyColumn_mem {field column : String} (h : keyColumn name type field = .ok column) :
    ∃ entry ∈ type.fields.entries, (fieldColumn type entry.1 entry.2).name = column := by
  unfold keyColumn at h
  split at h
  · rename_i found hlookup
    obtain ⟨field', hget, heq⟩ := Option.map_eq_some_iff.1 hlookup
    cases heq
    cases h
    exact ⟨_, OrderedMap.get?_eq_some.1 hget, rfl⟩
  · cases h

lemma foreignKey?_ok (h : foreignKey? catalog name type edge = .ok (some key)) :
    ∃ source column target identity, catalog.type? edge.target = some target ∧
      keyColumn name type source = .ok column ∧ target.identity? = some identity ∧
      key = ⟨[column], tableName target, [identity.column]⟩ := by
  unfold foreignKey? at h
  split at h
  · obtain ⟨target, htarget, h⟩ := bind_eq_ok.1 h
    split at h
    · cases h
    · rename_i source hsource
      obtain ⟨column, hcolumn, h⟩ := bind_eq_ok.1 h
      obtain ⟨identity, hidentity, h⟩ := bind_eq_ok.1 h
      obtain rfl := Option.some.inj (pure_eq_ok.1 h)
      exact ⟨source, column, target, identity, requireType_ok.1 htarget, hcolumn,
        requireIdentity_ok.1 hidentity, rfl⟩
  · cases h

/-- The columns and the primary key of the table of an object type. -/
lemma objectTable_columns (h : objectTable catalog name type = .ok table) :
    ∃ identity, type.identity? = some identity ∧ table.primaryKey = [identity.column] ∧
      table.columns = type.fields.entries.map fun entry => fieldColumn type entry.1 entry.2 := by
  obtain ⟨identity, hidentity, h⟩ := bind_eq_ok.1 h
  obtain ⟨keys, -, h⟩ := bind_eq_ok.1 h
  obtain rfl := pure_eq_ok.1 h
  exact ⟨identity, requireIdentity_ok.1 hidentity, rfl, rfl⟩

lemma objectTable_hasPrimaryKey (h : objectTable catalog name type = .ok table) :
    table.HasPrimaryKey := by
  obtain ⟨identity, hidentity, hprimary, hcolumns⟩ := objectTable_columns h
  intro column hcolumn
  rw [hprimary, List.mem_singleton] at hcolumn
  subst hcolumn
  refine ⟨fieldColumn type type.idField identity, ?_, rfl, ?_⟩
  · rw [hcolumns]
    exact List.mem_map_of_mem (f := fun entry : String × Field => fieldColumn type entry.1 entry.2)
      (OrderedMap.get?_eq_some.1 hidentity)
  · -- The identity cannot be null, even if its field is declared otherwise.
    simp [fieldColumn]

/-- Every object type has got its table, and the primary key of the table is the identity. -/
lemma Built.exists_table (h : Built catalog entries tables) (he : (name, type) ∈ entries)
    {identity : Field} (hidentity : type.identity? = some identity) :
    ∃ table ∈ tables, table.name = .stored (tableName type) ∧
      table.primaryKey = [identity.column] := by
  induction h with
  | nil => cases he
  | @cons entry table rest others htable _ ih =>
    rcases List.mem_cons.1 he with heq | he
    · subst heq
      obtain ⟨found, hfound, hprimary, -⟩ := objectTable_columns htable
      obtain rfl := Option.some.inj (hfound.symm.trans hidentity)
      exact ⟨table, List.mem_cons_self, (objectTable_ok htable).1, hprimary⟩
    · obtain ⟨found, hmem, hfound⟩ := ih he
      exact ⟨found, List.mem_cons_of_mem _ hmem, hfound⟩

lemma mem_objectTables (h : objectTables catalog entries = .ok tables) :
    table ∈ tables ↔ ∃ entry ∈ entries, objectTable catalog entry.1 entry.2 = .ok table := by
  have htables := mem_gathered (fun entry : String × ObjectType =>
    objectTable catalog entry.1 entry.2) (fun table => [table]) rfl (fun _ _ => rfl) h (k := table)
  simpa using htables

/-- The keys of a table fit the tables that are built with it. -/
lemma keysFit_of_mem_objectTables (h : objectTables catalog catalog.types.entries = .ok built)
    (ht : table ∈ built) : table.KeysFit built := by
  obtain ⟨⟨name, type⟩, -, htable⟩ := (mem_objectTables h).1 ht
  obtain ⟨-, hkeys⟩ := objectTable_ok htable
  refine ⟨objectTable_hasPrimaryKey htable, fun key hk => ?_⟩
  obtain ⟨edge, -, hedge⟩ := (mem_foreignKeys hkeys).1 hk
  obtain ⟨source, column, target, identity, htarget, hcolumn, hidentity, rfl⟩ :=
    foreignKey?_ok hedge
  refine ⟨fun name hname => ?_, rfl, ?_⟩
  · obtain ⟨-, -, -, hcolumns⟩ := objectTable_columns htable
    obtain ⟨entry, he, hentry⟩ := keyColumn_mem hcolumn
    rw [List.mem_singleton.1 hname, hcolumns]
    exact ⟨_, List.mem_map_of_mem he, hentry⟩
  · exact (objectTables_ok h).exists_table (Named.mem_of_lookup htarget) hidentity

/-! ### Keys of tables of pairs -/

lemma fits_pairKey (h : Built catalog catalog.types.entries built)
    (he : (name, type) ∈ catalog.types.entries) {identity : Field}
    (hidentity : type.identity? = some identity) {column : String}
    (hc : pairColumn column identity ∈ table.columns) :
    (pairKey column type identity).Fits built table where
  declared _ hname := ⟨_, hc, (List.mem_singleton.1 hname).symm⟩
  length_eq := rfl
  referenced := h.exists_table he hidentity

lemma keysFit_of_association (h : Built catalog catalog.types.entries built)
    (he : (name, type) ∈ catalog.types.entries)
    (hedge : associationTable? catalog name type edge = .ok (some table)) :
    table.KeysFit built := by
  obtain ⟨source, target, sourceIdentity, targetIdentity, reached, hreached, hsource, htarget,
    hcolumns, hprimary, hkeys⟩ := associationTable?_ok hedge
  have hs : pairColumn source sourceIdentity ∈ table.columns := by simp [hcolumns]
  have ht : pairColumn target targetIdentity ∈ table.columns := by simp [hcolumns]
  refine ⟨fun name hname => ?_, fun key hk => ?_⟩
  · rw [hprimary] at hname
    rcases List.mem_pair.1 hname with rfl | rfl
    · exact ⟨_, hs, rfl, rfl⟩
    · exact ⟨_, ht, rfl, rfl⟩
  · rw [hkeys] at hk
    rcases List.mem_pair.1 hk with rfl | rfl
    · exact fits_pairKey h he hsource hs
    · exact fits_pairKey h (Named.mem_of_lookup hreached) htarget ht

/-! ### Keys after the order of creation -/

/-- A table that is created is one that was built, perhaps without some of its foreign keys. -/
lemma exists_of_mem_dependencyOrder : ∀ table ∈ (dependencyOrder remaining).1,
    ∃ first ∈ remaining, first.keyless = table.keyless ∧
      table.foreignKeys ⊆ first.foreignKeys := by
  refine dependencyOrder_induction
    (P := fun remaining ordered _ => ∀ table ∈ ordered, ∃ first ∈ remaining,
      first.keyless = table.keyless ∧ table.foreignKeys ⊆ first.foreignKeys)
    (fun table ht => nomatch ht) ?_ remaining
  intro remaining table others ordered added hperm ih other ho
  rcases List.mem_cons.1 ho with rfl | ho
  · exact ⟨table, hperm.mem_iff.2 List.mem_cons_self, rfl, List.filter_subset_self _⟩
  · obtain ⟨first, hfirst, hkept⟩ := ih other ho
    exact ⟨first, hperm.mem_iff.2 (List.mem_cons_of_mem _ hfirst), hkept⟩

/-- All keys fit: the columns of every primary key are declared and cannot be null, and every
foreign key, whether declared with its table or added afterwards, refers from declared columns of
its table to as many columns that are the primary key of a table that is created. -/
theorem keysFit_of_createTables (h : createTables catalog = .ok (tables, added)) :
    (∀ table ∈ tables, table.KeysFit tables) ∧
      ∀ addition ∈ added, ∃ table ∈ tables, table.name = addition.table ∧
        addition.key.Fits tables table := by
  obtain ⟨built, hobjects, h⟩ := bind_eq_ok.1 h
  obtain ⟨associations, hassociations, h⟩ := bind_eq_ok.1 h
  obtain ⟨rfl, rfl⟩ := Prod.mk.inj (pure_eq_ok.1 h)
  have hbuilt : Built catalog catalog.types.entries built := objectTables_ok hobjects
  have hkept : built.map CreateTable.keyless ⊆
      ((dependencyOrder built).1 ++ firstOfName [] associations).map CreateTable.keyless := by
    rw [List.map_append]
    exact List.subset_append_of_subset_left _ (perm_dependencyOrder built).symm.subset
  constructor
  · intro table ht
    rcases List.mem_append.1 ht with ht | ht
    · obtain ⟨first, hfirst, hsame, hkeys⟩ := exists_of_mem_dependencyOrder table ht
      have hfit := keysFit_of_mem_objectTables hobjects hfirst
      exact ⟨hfit.primary.congr hsame,
        fun key hk => (hfit.foreign key (hkeys hk)).congr hsame hkept⟩
    · obtain ⟨entry, he, edge, -, hedge⟩ :=
        exists_edge_of_association hassociations (firstOfName_subset _ _ ht)
      have hfit := keysFit_of_association hbuilt he hedge
      exact ⟨hfit.primary, fun key hk => (hfit.foreign key hk).congr rfl hkept⟩
  · intro addition ha
    -- A key that was put off is one of those that a table was built with.
    obtain ⟨first, hfirst, hd⟩ := List.mem_flatMap.1
      ((perm_declared_dependencyOrder built).mem_iff.1 (List.mem_append_right _ ha))
    obtain ⟨key, hk, rfl⟩ := List.mem_map.1 hd
    obtain ⟨table, ht, hsame⟩ := List.mem_map.1 (hkept (List.mem_map_of_mem hfirst))
    have hfit := (keysFit_of_mem_objectTables hobjects hfirst).foreign key hk
    exact ⟨table, ht, (CreateTable.keyless_eq_iff.1 hsame).1, hfit.congr hsame.symm hkept⟩

theorem keysFit_of_createTables_circle :
    ∃ tables added, createTables circle = .ok (tables, added) ∧
      (∀ table ∈ tables, table.KeysFit tables) ∧
        ∀ addition ∈ added, ∃ table ∈ tables, table.name = addition.table ∧
          addition.key.Fits tables table := by
  have hok : (createTables circle).isOk = true := by decide +kernel
  obtain ⟨⟨tables, added⟩, h⟩ := exists_of_isOk hok
  exact ⟨tables, added, h, keysFit_of_createTables h⟩

end Compile
end ObjectGraph
