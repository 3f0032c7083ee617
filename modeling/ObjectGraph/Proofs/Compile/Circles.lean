/-
# Keys that are put off

When no table is ready, every table that remains leads, key by key, to tables that refer to each
other in a circle, and it is the first of them that is created without its keys, whether the
circle comes back to it or not.  Tables that are ready stand on no such way, so that it does not
matter when they are taken: a key is put off exactly if the table it refers to stands behind its
own and leads to a circle among the tables from its own on.  So the keys that are put off all lie
on circles if and only if such a table always leads back.
-/
import ObjectGraph.Proofs.Compile.Creation
import Mathlib.Data.Set.Finite.List
import Mathlib.Logic.Relation
import Mathlib.Order.Preorder.Finite

namespace ObjectGraph.Compile

open Relation (ReflTransGen TransGen)
open Sql (AddForeignKey CreateTable ForeignKey TableReference)

/-! ### References between tables -/

/-- One of the given tables refers to another one by a foreign key. -/
def Refers (tables : List CreateTable) (source target : CreateTable) : Prop :=
  source ∈ tables ∧ target ∈ tables ∧ target.name ≠ source.name ∧
    ∃ key ∈ source.foreignKeys, key.table = target.name

/-- From the table one comes, key by key, to a table that leads back to itself. -/
def LeadsToCircle (tables : List CreateTable) (table : CreateTable) : Prop :=
  ∃ member, ReflTransGen (Refers tables) table member ∧
    TransGen (Refers tables) member member

/-- From a table of the first name one comes, key by key, to one of the second name. -/
def Leads (tables : List CreateTable) (start goal : TableReference) : Prop :=
  ∃ source ∈ tables, ∃ target ∈ tables, source.name = start ∧ target.name = goal ∧
    ReflTransGen (Refers tables) source target

/-- The table that a key refers to leads back to the table of the key. -/
def ClosesCircle (tables : List CreateTable) (addition : AddForeignKey) : Prop :=
  Leads tables addition.key.table addition.table

/-- A key to a table that stands behind its own and leads to a circle among the tables from its
own on. -/
inductive PutOff : List CreateTable → AddForeignKey → Prop
  | here {table target : CreateTable} {rest : List CreateTable} {key : ForeignKey}
      (mem_keys : key ∈ table.foreignKeys) (mem_rest : target ∈ rest)
      (refers : key.table = target.name) (other : target.name ≠ table.name)
      (circle : LeadsToCircle (table :: rest) target) :
      PutOff (table :: rest) ⟨table.name, key⟩
  | behind {table : CreateTable} {rest : List CreateTable} {addition : AddForeignKey}
      (later : PutOff rest addition) : PutOff (table :: rest) addition

/-- Whenever a table refers to one behind it that leads to a circle among the tables from the first
of the two on, the second one leads back to the first. -/
def CirclesLeadBack (tables : List CreateTable) : Prop :=
  ∀ table rest, (table :: rest) <:+ tables → ∀ target ∈ rest,
    Refers (table :: rest) table target → LeadsToCircle (table :: rest) target →
      Leads tables target.name table.name

variable {tables others before behind remaining : List CreateTable}
  {table source target other : CreateTable} {addition : AddForeignKey}

lemma Refers.mono (hs : tables ⊆ others) : Refers tables ≤ Refers others :=
  fun _ _ h => ⟨hs h.1, hs h.2.1, h.2.2⟩

/-! ### Circles -/

lemma LeadsToCircle.mono (hs : tables ⊆ others) (h : LeadsToCircle tables table) :
    LeadsToCircle others table := by
  obtain ⟨member, hwalk, hround⟩ := h
  exact ⟨member, ReflTransGen.mono (Refers.mono hs) _ _ hwalk,
    TransGen.mono (Refers.mono hs) _ _ hround⟩

/-- The way to a circle and around it never ends. -/
lemma LeadsToCircle.exists_next (h : LeadsToCircle tables table) :
    ∃ target, Refers tables table target ∧ LeadsToCircle tables target := by
  obtain ⟨member, hwalk, hround⟩ := h
  rcases hwalk.cases_head with rfl | ⟨target, hstep, hrest⟩
  · obtain ⟨target, hstep, hrest⟩ := TransGen.head'_iff.1 hround
    exact ⟨target, hstep, table, hrest, hround⟩
  · exact ⟨target, hstep, member, hrest, hround⟩

/-- A way among finitely many tables that never ends comes to a circle. -/
lemma leadsToCircle_of_forall_next {P : CreateTable → Prop}
    (hnext : ∀ source, P source → ∃ target, Refers tables source target ∧ P target)
    (h : P table) : LeadsToCircle tables table := by
  have : Nonempty CreateTable := ⟨table⟩
  choose! next hrefers hkeeps using hnext
  have hall : ∀ n, P (next^[n] table) := by
    intro n
    induction n with
    | zero => exact h
    | succ n ih =>
      rw [Function.iterate_succ_apply']
      exact hkeeps _ ih
  have hstep : ∀ n, Refers tables (next^[n] table) (next^[n + 1] table) := by
    intro n
    rw [Function.iterate_succ_apply']
    exact hrefers _ (hall n)
  have hmem : Set.MapsTo (fun n => next^[n] table) Set.univ {table | table ∈ tables} :=
    fun n _ => (hstep n).1
  -- Two places of the way are the same table, and between them it goes around.
  obtain ⟨i, -, j, -, hlt, heq⟩ :=
    Set.infinite_univ.exists_lt_map_eq_of_mapsTo hmem (List.finite_toSet tables)
  refine ⟨next^[i] table, ?_, ?_⟩
  · exact Nat.rel_of_forall_rel_succ_of_le (ReflTransGen (Refers tables))
      (f := fun n => next^[n] table) (fun n => .single (hstep n)) (Nat.zero_le i)
  · have hround := Nat.rel_of_forall_rel_succ_of_lt (TransGen (Refers tables))
      (f := fun n => next^[n] table) (fun n => .single (hstep n)) hlt
    rwa [← heq] at hround

/-! ### Tables that are ready -/

lemma not_refers_of_isReady (h : isReady tables table = true) : ¬ Refers tables table target := by
  rintro ⟨-, hmem, hne, key, hk, hname⟩
  have hwaits : waitsOn tables table key = true :=
    waitsOn_iff.2 ⟨hname ▸ hne, hname ▸ List.mem_map_of_mem hmem⟩
  rw [waitsOn_of_isReady (List.Subset.refl _) h hk] at hwaits
  cases hwaits

lemma exists_refers_of_not_isReady (hm : table ∈ tables) (h : isReady tables table = false) :
    ∃ target, Refers tables table target := by
  obtain ⟨key, hk, hwaits⟩ := List.all_eq_false.1 h
  obtain ⟨hne, hmem⟩ := waitsOn_iff.1 (by simpa using hwaits)
  obtain ⟨target, ht, hname⟩ := List.mem_map.1 hmem
  exact ⟨target, hm, ht, hname ▸ hne, key, hk, hname.symm⟩

lemma isReady_mono (hs : others ⊆ tables) (h : isReady tables table = true) :
    isReady others table = true := by
  refine List.all_eq_true.2 fun key hk => ?_
  rw [waitsOn_of_isReady hs h hk]
  rfl

/-- A table that refers to another one is not the one that is ready. -/
lemma ne_of_refers (h : isReady tables table = true) (hr : Refers tables source target) :
    source ≠ table := by
  rintro rfl
  exact not_refers_of_isReady h hr

lemma mem_append_of_ne (hmem : other ∈ before ++ table :: behind) (hne : other ≠ table) :
    other ∈ before ++ behind :=
  (List.mem_cons.1 (List.perm_middle.mem_iff.1 hmem)).resolve_left hne

/-- A table that is ready stands on no way to a circle. -/
lemma leadsToCircle_remove_iff (h : isReady (before ++ table :: behind) table = true) :
    LeadsToCircle (before ++ table :: behind) other ↔ LeadsToCircle (before ++ behind) other := by
  have hkept : ∀ {next}, next ∈ before ++ table :: behind →
      LeadsToCircle (before ++ table :: behind) next → next ∈ before ++ behind := by
    intro next hmem hcircle
    obtain ⟨target, hrefers, -⟩ := hcircle.exists_next
    exact mem_append_of_ne hmem (ne_of_refers h hrefers)
  constructor
  · refine leadsToCircle_of_forall_next fun source hsource => ?_
    obtain ⟨target, hrefers, htarget⟩ := hsource.exists_next
    exact ⟨target, ⟨hkept hrefers.1 hsource, hkept hrefers.2.1 htarget, hrefers.2.2⟩, htarget⟩
  · exact LeadsToCircle.mono (append_subset_middle _ _ _)

lemma putOff_remove_iff (h : isReady (before ++ table :: behind) table = true) :
    PutOff (before ++ table :: behind) addition ↔ PutOff (before ++ behind) addition := by
  induction before with
  | nil =>
    constructor
    · intro hput
      cases hput with
      | here hkey hmem hname hother =>
        have hrefers : Refers (table :: behind) table _ :=
          ⟨List.mem_cons_self, List.mem_cons_of_mem _ hmem, hother, _, hkey, hname⟩
        exact absurd hrefers (not_refers_of_isReady h)
      | behind hput => exact hput
    · exact .behind
  | cons first before ih =>
    have hrest := ih (isReady_mono (List.subset_cons_self _ _) h)
    constructor
    · intro hput
      cases hput with
      | @here _ target _ _ hkey hmem hname hother hcircle =>
        obtain ⟨next, hrefers, -⟩ := hcircle.exists_next
        have hmem' : target ∈ before ++ behind := mem_append_of_ne hmem (ne_of_refers h hrefers)
        exact .here hkey hmem' hname hother ((leadsToCircle_remove_iff h).1 hcircle)
      | behind hput => exact .behind (hrest.1 hput)
    · intro hput
      cases hput with
      | here hkey hmem hname hother hcircle =>
        exact .here hkey (append_subset_middle _ _ _ hmem) hname hother
          ((leadsToCircle_remove_iff h).2 hcircle)
      | behind hput => exact .behind (hrest.2 hput)

/-- If no table is ready, all of them lead to circles. -/
lemma leadsToCircle_of_none_isReady (h : ∀ table ∈ tables, isReady tables table = false)
    (hm : table ∈ tables) : LeadsToCircle tables table := by
  refine leadsToCircle_of_forall_next (P := (· ∈ tables)) (fun source hsource => ?_) hm
  obtain ⟨target, hrefers⟩ := exists_refers_of_not_isReady hsource (h source hsource)
  exact ⟨target, hrefers, hrefers.2.1⟩

/-! ### The keys that are put off -/

lemma mem_defer_iff : addition ∈ (defer others table).2 ↔
    addition.table = table.name ∧ addition.key ∈ table.foreignKeys ∧
      addition.key.table ≠ table.name ∧ addition.key.table ∈ tableNames others := by
  obtain ⟨name, key⟩ := addition
  simp only [defer, List.mem_map, List.mem_filter, waitsOn_iff, AddForeignKey.mk.injEq]
  constructor
  · rintro ⟨key', ⟨hkey, hwaits⟩, rfl, rfl⟩
    exact ⟨rfl, hkey, hwaits⟩
  · rintro ⟨rfl, hkey, hwaits⟩
    exact ⟨key, ⟨hkey, hwaits⟩, rfl, rfl⟩

/-- The order puts off the keys that lead to circles among the tables from their own on. -/
lemma mem_dependencyOrder_iff :
    addition ∈ (dependencyOrder remaining).2 ↔ PutOff remaining addition := by
  fun_induction dependencyOrder remaining with
  | case1 remaining table others hextract _ ordered added horder ih =>
    obtain ⟨hready, before, behind, rfl, rfl⟩ := exists_of_extractFirst hextract
    rw [putOff_remove_iff hready, ← ih, horder]
  | case2 _ =>
    refine iff_of_false List.not_mem_nil ?_
    rintro ⟨⟩
  | case3 first others hextract table deferred hdefer ordered added horder ih =>
    have hnone := extractFirst_eq_none hextract
    obtain ⟨name, key⟩ := addition
    rw [List.mem_append, ← show (defer others first).2 = deferred by rw [hdefer], mem_defer_iff,
      ← show (dependencyOrder others).2 = added by rw [horder], ih]
    constructor
    · rintro (⟨rfl, hkey, hne, hmem⟩ | hput)
      · obtain ⟨target, ht, hname⟩ := List.mem_map.1 hmem
        have hcircle : LeadsToCircle (first :: others) target :=
          leadsToCircle_of_none_isReady hnone (List.mem_cons_of_mem _ ht)
        exact .here hkey ht hname.symm (hname ▸ hne) hcircle
      · exact .behind hput
    · intro hput
      cases hput with
      | here hkey hmem hname hother =>
        exact .inl ⟨rfl, hkey, hname ▸ hother, hname ▸ List.mem_map_of_mem hmem⟩
      | behind hput => exact .inr hput

/-- A key is put off on account of its table and the tables behind it. -/
lemma putOff_iff_suffix : PutOff tables addition ↔
    ∃ table rest target, (table :: rest) <:+ tables ∧ addition.table = table.name ∧
      addition.key.table = target.name ∧ addition.key ∈ table.foreignKeys ∧ target ∈ rest ∧
      target.name ≠ table.name ∧ LeadsToCircle (table :: rest) target := by
  constructor
  · intro hput
    induction hput with
    | @here table target rest key hkey ht hname hne hcircle =>
      exact ⟨table, rest, target, List.suffix_refl _, rfl, hname, hkey, ht, hne, hcircle⟩
    | behind _ ih =>
      obtain ⟨table, rest, target, hs, h⟩ := ih
      exact ⟨table, rest, target, hs.trans (List.suffix_cons _ _), h⟩
  · obtain ⟨name, key⟩ := addition
    rintro ⟨table, rest, target, ⟨front, rfl⟩, rfl, hname, hkey, ht, hne, hcircle⟩
    induction front with
    | nil => exact .here hkey ht hname hne hcircle
    | cons first front ih => exact .behind ih

/-- Keys that are put off close circles exactly if what leads to a circle leads back. -/
lemma forall_closesCircle_iff :
    (∀ addition, PutOff tables addition → ClosesCircle tables addition) ↔
      CirclesLeadBack tables := by
  constructor
  · rintro h table rest hs target ht ⟨-, -, hne, key, hkey, hname⟩ hcircle
    have hput : PutOff tables ⟨table.name, key⟩ :=
      putOff_iff_suffix.2 ⟨table, rest, target, hs, rfl, hname, hkey, ht, hne, hcircle⟩
    have hcloses := h _ hput
    rwa [ClosesCircle, hname] at hcloses
  · intro h addition hput
    obtain ⟨table, rest, target, hs, htable, hname, hkey, ht, hne, hcircle⟩ :=
      putOff_iff_suffix.1 hput
    have hrefers : Refers (table :: rest) table target :=
      ⟨List.mem_cons_self, List.mem_cons_of_mem _ ht, hne, addition.key, hkey, hname⟩
    have hback := h table rest hs target ht hrefers hcircle
    rwa [← hname, ← htable] at hback

/-- The keys that are put off lie on circles in whatever order the tables stand, exactly if all keys
to tables that lead to circles do. -/
theorem closesCircle_of_every_order_iff :
    (∀ order, order.Perm tables → ∀ addition ∈ (dependencyOrder order).2,
        ClosesCircle tables addition) ↔
      ∀ source target, Refers tables source target → LeadsToCircle tables target →
        Leads tables target.name source.name := by
  constructor
  · rintro h source target ⟨hsource, htarget, hne, key, hkey, hname⟩ hcircle
    -- The order that begins with the table puts off all its keys that lead to circles.
    have hperm : tables.Perm (source :: tables.erase source) := List.perm_cons_erase hsource
    have hbehind : target ∈ tables.erase source :=
      (List.mem_erase_of_ne fun heq => hne (congrArg _ heq)).2 htarget
    have hput : PutOff (source :: tables.erase source) ⟨source.name, key⟩ :=
      .here hkey hbehind hname hne (hcircle.mono hperm.subset)
    have hcloses := h _ hperm.symm _ (mem_dependencyOrder_iff.2 hput)
    rwa [ClosesCircle, hname] at hcloses
  · intro h order hperm addition hadded
    obtain ⟨table, rest, target, hs, htable, hname, hkey, ht, hne, hcircle⟩ :=
      putOff_iff_suffix.1 (mem_dependencyOrder_iff.1 hadded)
    have hsubset : table :: rest ⊆ tables := List.Subset.trans hs.subset hperm.subset
    have hrefers : Refers tables table target := ⟨hsubset List.mem_cons_self,
      hsubset (List.mem_cons_of_mem _ ht), hne, addition.key, hkey, hname⟩
    have hback := h table target hrefers (hcircle.mono hsubset)
    rwa [← hname, ← htable] at hback

/-! ### The keys that a catalog puts off -/

/-- The keys that are added after the tables are those to tables that stand behind their own and
lead to circles; all of them lie on circles themselves exactly if what such a key leads to always
leads back. -/
theorem closesCircle_iff_leadsBack {catalog : Catalog} {added : List AddForeignKey}
    (h : createTables catalog = .ok (tables, added)) :
    ∃ built, Built catalog catalog.types.entries built ∧
      (∀ addition, addition ∈ added ↔ PutOff built addition) ∧
      ((∀ addition ∈ added, ClosesCircle built addition) ↔ CirclesLeadBack built) := by
  obtain ⟨built, hbuilt, h⟩ := bind_eq_ok.1 h
  obtain ⟨associations, -, h⟩ := bind_eq_ok.1 h
  obtain ⟨-, rfl⟩ := Prod.mk.inj (pure_eq_ok.1 h)
  refine ⟨built, objectTables_ok hbuilt, fun addition => mem_dependencyOrder_iff, ?_⟩
  rw [← forall_closesCircle_iff]
  exact forall_congr' fun addition => imp_congr_left mem_dependencyOrder_iff

/-! ### A key to a circle of others -/

/-- Badges that members hold; members and the teams they lead refer to each other. -/
def badges : Catalog :=
  let badge := ObjectType.named "Badge"
    |>.withField "id" .bigint false
    |>.withField "holder_id" .bigint true
    |>.withEdge "holder"
      { target := "Member", cardinality := .one,
        join := .columns (.ofList [("holder_id", "id")]) }
  let member := ObjectType.named "Member"
    |>.withField "id" .bigint false
    |>.withField "team_id" .bigint true
    |>.withEdge "team"
      { target := "Team", cardinality := .one,
        join := .columns (.ofList [("team_id", "id")]) }
  let team := ObjectType.named "Team"
    |>.withField "id" .bigint false
    |>.withField "captain_id" .bigint true
    |>.withEdge "captain"
      { target := "Member", cardinality := .one,
        join := .columns (.ofList [("captain_id", "id")]) }
  Catalog.empty |>.withType "Badge" badge |>.withType "Member" member |>.withType "Team" team

/-- A table of numbered objects that refer to those of another one. -/
def referringTable (name column target : String) : CreateTable where
  name := .stored ⟨none, name⟩
  columns := [⟨"id", "bigint", true⟩, ⟨column, "bigint", false⟩]
  primaryKey := ["id"]
  foreignKeys := [⟨[column], .stored ⟨none, target⟩, ["id"]⟩]

/-- Badges refer to their holders. -/
def badgeTable : CreateTable := referringTable "badge" "holder_id" "member"

/-- Members refer to their teams. -/
def memberTable : CreateTable := referringTable "member" "team_id" "team"

/-- Teams refer to their captains. -/
def teamTable : CreateTable := referringTable "team" "captain_id" "member"

lemma createTables_badges : createTables badges =
    .ok ([badgeTable.keyless, memberTable.keyless, teamTable],
      badgeTable.declared ++ memberTable.declared) := by
  decide +kernel

theorem closesCircle_iff_leadsBack_badges :
    ∃ tables added, createTables badges = .ok (tables, added) ∧
      ∃ built, Built badges badges.types.entries built ∧
        (∀ addition, addition ∈ added ↔ PutOff built addition) ∧
        ((∀ addition ∈ added, ClosesCircle built addition) ↔ CirclesLeadBack built) :=
  ⟨_, _, createTables_badges, closesCircle_iff_leadsBack createTables_badges⟩

/-- The key of the badges is put off, but no key leads back to them. -/
theorem not_closesCircle_badges :
    ∃ tables added built, createTables badges = .ok (tables, added) ∧
      objectTables badges badges.types.entries = .ok built ∧
      ∃ addition ∈ added, ¬ ClosesCircle built addition := by
  have hbuilt : objectTables badges badges.types.entries =
      .ok [badgeTable, memberTable, teamTable] := by decide +kernel
  refine ⟨_, _, _, createTables_badges, hbuilt, _, List.mem_cons_self, ?_⟩
  rintro ⟨source, -, target, -, hsource, htarget, hwalk⟩
  have hnone : ∀ table ∈ [badgeTable, memberTable, teamTable], ∀ key ∈ table.foreignKeys,
      key.table ≠ badgeTable.name := by decide
  rcases hwalk.cases_tail with rfl | ⟨last, -, hlast, -, -, key, hkey, hname⟩
  · exact absurd (hsource.symm.trans htarget) (by decide)
  · exact hnone last hlast key hkey (hname.trans htarget)

end ObjectGraph.Compile
