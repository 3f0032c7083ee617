/-
# What the check of a catalog is enough for

A configuration is only resolved if every object type of its catalog has an identity field and
every edge leads to one of the types.  Tables and edges look up more than that: the fields that
column mappings tie together.  So tables can be created and an edge can be followed exactly if
those fields are declared, and nothing else can be missing.
-/
import ObjectGraph.Compile.Tables
import ObjectGraph.Configuration
import ObjectGraph.Proofs.Compile.Build
import ObjectGraph.Proofs.Named

namespace ObjectGraph

open Compile
open Sql (Expression TableAlias)

variable {α β γ ε : Type} {catalog : Catalog} {name : String} {type target : ObjectType}
  {edge : Edge} {counts last : AliasCounts} {draft : Draft} {handle : TableAlias}

/-! ### Computations that succeed -/

/-- Whether a computation has a result. -/
def Succeeds (x : Except ε α) : Prop := ∃ a, x = .ok a

lemma succeeds_ok {a : α} : Succeeds (.ok a : Except ε α) := ⟨a, rfl⟩

lemma succeeds_pure {a : α} : Succeeds (pure a : Except ε α) := ⟨a, rfl⟩

lemma not_succeeds_error {e : ε} : ¬ Succeeds (.error e : Except ε α) := nofun

lemma succeeds_bind {x : Except ε α} {f : α → Except ε β} :
    Succeeds (x >>= f) ↔ ∃ a, x = .ok a ∧ Succeeds (f a) := by
  cases x with
  | error e => simp [Succeeds, bind, Except.bind]
  | ok a => simp [bind, Except.bind]

/-- A computation whose rest cannot fail succeeds if its first part does. -/
lemma succeeds_bind_of_forall {x : Except ε α} {f : α → Except ε β} (h : ∀ a, Succeeds (f a)) :
    Succeeds (x >>= f) ↔ Succeeds x := by
  rw [succeeds_bind]
  exact exists_congr fun a => and_iff_left (h a)

lemma succeeds_map {x : Except ε α} {f : α → β} : Succeeds (x.map f) ↔ Succeeds x := by
  cases x with
  | error e => exact iff_of_false not_succeeds_error not_succeeds_error
  | ok a => exact iff_of_true succeeds_ok succeeds_ok

/-- A build of two parts succeeds if both do, each with the aliases that are fresh by then. -/
lemma succeeds_run_bind {x : Build α} {f : α → Build β} :
    Succeeds ((x >>= f).run counts) ↔
      ∃ a between, x.run counts = .ok (a, between) ∧ Succeeds ((f a).run between) := by
  rw [StateT.run_bind, succeeds_bind, Prod.exists]

lemma succeeds_run_lift {x : Except CompileError α} :
    Succeeds ((liftM x : Build α).run counts) ↔ Succeeds x :=
  succeeds_bind_of_forall fun _ => succeeds_ok

lemma succeeds_run_pure {a : α} : Succeeds ((pure a : Build α).run counts) := succeeds_ok

/-- A build whose rest cannot fail succeeds if its first part does. -/
lemma succeeds_run_bind_of_forall {x : Build α} {f : α → Build β}
    (h : ∀ a counts, Succeeds ((f a).run counts)) :
    Succeeds ((x >>= f).run counts) ↔ Succeeds (x.run counts) := by
  rw [StateT.run_bind]
  exact succeeds_bind_of_forall fun result => h result.1 result.2

/-- A build goes on from what its first part gives. -/
lemma succeeds_run_bind_of_ok {x : Build α} {f : α → Build β} {a : α}
    (h : x.run counts = .ok (a, last)) :
    Succeeds ((x >>= f).run counts) ↔ Succeeds ((f a).run last) := by
  rw [StateT.run_bind, h]
  rfl

lemma succeeds_both {x : Except ε α} {y : Except ε β} {g : α → β → γ} :
    Succeeds (do let a ← x; let b ← y; return g a b) ↔ Succeeds x ∧ Succeeds y := by
  rw [succeeds_bind]
  exact (exists_congr fun a => and_congr_right fun _ =>
    succeeds_bind_of_forall fun b => succeeds_ok).trans exists_and_right

/-- A computation for every element of a list succeeds if that for each of them does. -/
lemma succeeds_each (run : List γ → Except ε β) (f : γ → Except ε α) (nil : Succeeds (run []))
    (cons : ∀ c rest, Succeeds (run (c :: rest)) ↔ Succeeds (f c) ∧ Succeeds (run rest))
    (l : List γ) : Succeeds (run l) ↔ ∀ c ∈ l, Succeeds (f c) := by
  induction l with
  | nil => exact iff_of_true nil nofun
  | cons c rest ih => rw [cons, ih, List.forall_mem_cons]

/-! ### Catalogs that pass the check -/

/-- Every object type has its identity field, and every edge leads to an object type. -/
structure Catalog.Complete (catalog : Catalog) : Prop where
  identity : ∀ {name : String} {type : ObjectType}, catalog.type? name = some type →
    ∃ field, type.identity? = some field
  target : ∀ {name : String} {type : ObjectType}, catalog.type? name = some type →
    ∀ {key : String} {edge : Edge}, type.edges.get? key = some edge →
      ∃ target, catalog.type? edge.target = some target

lemma Catalog.faultOf_eq_none (h : catalog.faultOf name type = none) :
    (∃ field, type.identity? = some field) ∧ ∀ {key edge}, type.edges.get? key = some edge →
      ∃ target, catalog.type? edge.target = some target := by
  unfold faultOf at h
  split at h
  · cases h
  · rename_i hidentity
    refine ⟨Option.ne_none_iff_exists'.1 (by simpa using hidentity), fun {key edge} he => ?_⟩
    have hedge := List.findSome?_eq_none_iff.1 h (key, edge) (OrderedMap.get?_eq_some.1 he)
    by_cases hc : catalog.types.contains edge.target = true
    · exact Option.isSome_iff_exists.1 hc
    · simp [hc] at hedge

lemma Catalog.complete_of_fault? (h : catalog.fault? = none) : catalog.Complete := by
  have hnone {name : String} {type : ObjectType} (ht : catalog.type? name = some type) :
      catalog.faultOf name type = none :=
    List.findSome?_eq_none_iff.1 h (name, type) (SortedMap.get?_eq_some.1 ht)
  exact ⟨fun ht => (faultOf_eq_none (hnone ht)).1, fun ht => (faultOf_eq_none (hnone ht)).2⟩

/-- A configuration is only resolved if its catalog passes the check, and it keeps the catalog. -/
lemma Configuration.resolve_ok {configuration : Configuration} {environment : Environment}
    {settings : Settings} (h : configuration.resolve environment = .ok settings) :
    settings.catalog = configuration.catalog ∧ settings.catalog.Complete := by
  obtain ⟨uri, -, h⟩ := bind_eq_ok.1 h
  split at h
  · cases h
  · rename_i hfault
    obtain rfl := pure_eq_ok.1 h
    exact ⟨rfl, Catalog.complete_of_fault? hfault⟩

lemma succeeds_requireIdentity (h : ∃ field, type.identity? = some field) (name : String) :
    Succeeds (type.requireIdentity name) := by
  obtain ⟨field, hfield⟩ := h
  exact ⟨field, requireIdentity_ok.2 hfield⟩

/-! ### Tables -/

/-- If an edge reaches at most one object and a field of the object it starts from holds the
identity of that one, then this field is declared. -/
def KeyDeclared (catalog : Catalog) (type : ObjectType) (edge : Edge) : Prop :=
  ∀ mapping target source, edge.join = .columns mapping → edge.cardinality = .one →
    catalog.type? edge.target = some target → identityPair? target mapping.entries = some source →
      (type.lookupField source).isSome

lemma succeeds_keyColumn {field : String} :
    Succeeds (keyColumn name type field) ↔ (type.lookupField field).isSome := by
  unfold keyColumn
  split <;> rename_i hfound
  · exact iff_of_true succeeds_ok (by simp [hfound])
  · exact iff_of_false not_succeeds_error (by simp [hfound])

lemma succeeds_foreignKey? (hc : catalog.Complete)
    (ht : ∃ target, catalog.type? edge.target = some target) :
    Succeeds (foreignKey? catalog name type edge) ↔ KeyDeclared catalog type edge := by
  obtain ⟨target, ht⟩ := ht
  have hidentity := succeeds_requireIdentity (hc.identity ht) edge.target
  unfold foreignKey?
  split
  · rename_i mapping hjoin hone
    rw [requireType_ok.2 ht, succeeds_bind]
    cases hpair : identityPair? target mapping.entries with
    | none =>
      -- the mapping does not lead to the identity, so there is no key to declare
      refine iff_of_true ⟨target, rfl, by simpa only [hpair] using succeeds_pure⟩ ?_
      intro _ _ source hj _ ht' hs
      cases hjoin.symm.trans hj
      cases ht.symm.trans ht'
      cases hpair.symm.trans hs
    | some source =>
      simp only [Except.ok.injEq, exists_eq_left', hpair, succeeds_both, hidentity, and_true,
        succeeds_keyColumn]
      refine ⟨fun h _ _ source' hj _ ht' hs => ?_, fun h => h _ _ _ hjoin hone ht hpair⟩
      cases hjoin.symm.trans hj
      cases ht.symm.trans ht'
      cases hpair.symm.trans hs
      exact h
  · rename_i hother
    exact iff_of_true succeeds_ok fun mapping _ _ hj hone => absurd hone (hother mapping hj)

lemma succeeds_foreignKeys (hc : catalog.Complete) {edges : List (String × Edge)}
    (ht : ∀ entry ∈ edges, ∃ target, catalog.type? entry.2.target = some target) :
    Succeeds (foreignKeys catalog name type edges) ↔
      ∀ entry ∈ edges, KeyDeclared catalog type entry.2 := by
  have hkeys := succeeds_each (foreignKeys catalog name type)
    (fun entry => foreignKey? catalog name type entry.2) succeeds_pure
    (fun _ _ => succeeds_both) edges
  exact hkeys.trans (forall₂_congr fun entry he => succeeds_foreignKey? hc (ht entry he))

/-- The table of an object type can be made if the keys of all edges are declared. -/
lemma succeeds_objectTable (hc : catalog.Complete) (ht : catalog.type? name = some type) :
    Succeeds (objectTable catalog name type) ↔
      ∀ entry ∈ type.edges.entries, KeyDeclared catalog type entry.2 := by
  have htargets : ∀ entry ∈ type.edges.entries, ∃ target,
      catalog.type? entry.2.target = some target :=
    fun entry he => hc.target ht (OrderedMap.get?_eq_some.2 he)
  have hidentity := succeeds_requireIdentity (hc.identity ht) name
  exact succeeds_both.trans ((and_iff_right hidentity).trans (succeeds_foreignKeys hc htargets))

/-- The table of pairs of an edge only needs the identities of the two types. -/
lemma succeeds_associationTable? (hc : catalog.Complete) (ht : catalog.type? name = some type)
    (htarget : ∃ target, catalog.type? edge.target = some target) :
    Succeeds (associationTable? catalog name type edge) := by
  obtain ⟨target, htarget⟩ := htarget
  unfold associationTable?
  split
  · exact succeeds_pure
  · rw [requireType_ok.2 htarget, succeeds_bind]
    exact ⟨target, rfl, succeeds_both.2 ⟨succeeds_requireIdentity (hc.identity ht) name,
      succeeds_requireIdentity (hc.identity htarget) edge.target⟩⟩

lemma succeeds_associationTables (hc : catalog.Complete) (ht : catalog.type? name = some type) :
    Succeeds (associationTables catalog name type type.edges.entries) := by
  have htables := succeeds_each (associationTables catalog name type)
    (fun entry => associationTable? catalog name type entry.2) succeeds_pure
    (fun _ _ => succeeds_both) type.edges.entries
  exact htables.2 fun _ he =>
    succeeds_associationTable? hc ht (hc.target ht (OrderedMap.get?_eq_some.2 he))

/-- The tables of a catalog can be created exactly if the keys of all edges are declared. -/
lemma succeeds_tableStatements (hc : catalog.Complete) :
    Succeeds (tableStatements catalog) ↔ ∀ name type, catalog.type? name = some type →
      ∀ key edge, type.edges.get? key = some edge → KeyDeclared catalog type edge := by
  have htables := succeeds_each (objectTables catalog)
    (fun entry => objectTable catalog entry.1 entry.2) succeeds_pure
    (fun _ _ => succeeds_both) catalog.types.entries
  have hpairs := (succeeds_each (allAssociationTables catalog)
    (fun entry => associationTables catalog entry.1 entry.2 entry.2.edges.entries) succeeds_pure
    (fun _ _ => succeeds_both) catalog.types.entries).2 fun _ ht =>
      succeeds_associationTables hc (SortedMap.get?_eq_some.2 ht)
  rw [tableStatements, succeeds_bind_of_forall fun _ => succeeds_pure, createTables]
  refine succeeds_both.trans ((and_iff_left hpairs).trans (htables.trans ?_))
  rw [Prod.forall]
  refine forall₂_congr fun name type => ?_
  rw [← SortedMap.get?_eq_some]
  refine imp_congr_right fun ht => (succeeds_objectTable hc ht).trans ?_
  rw [Prod.forall]
  exact forall₂_congr fun key edge => by rw [OrderedMap.get?_eq_some]

/-! ### Edges -/

/-- A reference to the identity of an object or to one of the fields of its type. -/
def RefersTo (type : ObjectType) (reference : String) : Prop :=
  unqualified reference = identityColumn ∨ (type.lookupField (unqualified reference)).isSome

/-- The column mapping of an edge, if it has one, ties references to the objects the edge starts
from to fields of those it leads to. -/
def TiesDeclared (catalog : Catalog) (type : ObjectType) (edge : Edge) : Prop :=
  ∀ mapping target, edge.join = .columns mapping → catalog.type? edge.target = some target →
    ∀ pair ∈ mapping.entries, RefersTo type pair.1 ∧ (target.lookupField pair.2).isSome

section References

variable {reference : String} {condition : Expression}

lemma lookupField_idKey (h : ∃ field, type.identity? = some field) :
    (type.lookupField idKey).isSome := by
  obtain ⟨field, hfield⟩ := h
  have hget : type.fields.get? type.idField = some field := hfield
  simp [ObjectType.lookupField, hget]

/-- What a column of the table of a type answers to is the identity or a field. -/
lemma refersTo_of_column? (hi : (type.lookupField idKey).isSome) {column : Column}
    (h : (Column.ofType type handle).find? (·.answersTo reference) = some column) :
    reference = identityColumn ∨ (type.lookupField reference).isSome := by
  obtain ⟨⟨field, found⟩, he, rfl⟩ := List.mem_map.1 (List.mem_of_find?_eq_some h)
  have hanswers := List.find?_some h
  simp only [Column.answersTo, Bool.or_eq_true, Bool.and_eq_true, beq_iff_eq] at hanswers
  rcases hanswers with rfl | ⟨-, rfl | hid⟩
  · by_cases hkey : field = idKey
    · exact .inr (hkey ▸ hi)
    · have hget := OrderedMap.get?_eq_some.2 he
      exact .inr (by simp [ObjectType.lookupField, hkey, hget])
  · exact .inr hi
  · exact .inl hid

/-- A reference means a column or, where none answers to it, a field that is stored. -/
lemma succeeds_resolve : Succeeds (draft.resolve catalog reference) ↔
    (∃ column, draft.column? (unqualified reference) = some column) ∨
      ∃ field, draft.storedField? catalog (unqualified reference) = .ok (some field) := by
  unfold Draft.resolve
  dsimp only
  split <;> rename_i hcolumn
  · exact iff_of_true succeeds_pure (.inl ⟨_, hcolumn⟩)
  · simp only [hcolumn, succeeds_bind, reduceCtorEq, exists_false, false_or]
    constructor
    · rintro ⟨found, hfound, h⟩
      cases found with
      | none => exact absurd h not_succeeds_error
      | some field => exact ⟨field, hfound⟩
    · rintro ⟨field, hfield⟩
      exact ⟨some field, hfield, succeeds_pure⟩

lemma storedField?_startDraft (ht : catalog.type? name = some type) :
    (startDraft name type handle condition).storedField? catalog reference
      = .ok ((type.lookupField (if reference = identityColumn then idKey else reference)).map
          Prod.snd) := by
  simp only [Draft.storedField?, startDraft, requireType_ok.2 ht]
  rfl

/-- Over the table of a type, references are to the identity and to the fields of the type. -/
lemma succeeds_resolve_startDraft (hc : catalog.Complete) (ht : catalog.type? name = some type) :
    Succeeds ((startDraft name type handle condition).resolve catalog reference) ↔
      RefersTo type reference := by
  have hi := lookupField_idKey (hc.identity ht)
  rw [succeeds_resolve]
  constructor
  · rintro (⟨column, hcolumn⟩ | ⟨field, hfield⟩)
    · exact refersTo_of_column? hi hcolumn
    · rw [storedField?_startDraft ht, Except.ok.injEq] at hfield
      by_cases hid : unqualified reference = identityColumn
      · exact .inl hid
      · obtain ⟨found, hfound, -⟩ := Option.map_eq_some_iff.1 hfield
        rw [if_neg hid] at hfound
        exact .inr (Option.isSome_of_eq_some hfound)
  · intro h
    have hstored : ∃ found, type.lookupField (if unqualified reference = identityColumn then idKey
        else unqualified reference) = some found := by
      rw [← Option.isSome_iff_exists]
      split
      · exact hi
      · exact h.resolve_left ‹_›
    obtain ⟨found, hfound⟩ := hstored
    exact .inr ⟨found.2, by rw [storedField?_startDraft ht, hfound]; rfl⟩

lemma succeeds_storedColumn {table : TableAlias} :
    Succeeds (storedColumn name type table reference) ↔ (type.lookupField reference).isSome := by
  unfold storedColumn
  split <;> rename_i hfound
  · exact iff_of_true succeeds_ok (by simp [hfound])
  · exact iff_of_false not_succeeds_error (by simp [hfound])

end References

section Ties

variable {row : Draft} {table : TableAlias} {before : Expression}

lemma succeeds_tieColumns (entries : List (String × String)) :
    Succeeds (tieColumns catalog row entries) ↔
      ∀ pair ∈ entries, Succeeds (row.resolve catalog pair.1) :=
  succeeds_each (tieColumns catalog row) (fun pair => row.resolve catalog pair.1) succeeds_pure
    (fun _ _ => succeeds_both) entries

/-- A tie by columns is on the targets of its mapping. -/
lemma tieColumns_fields {entries : List (String × String)} {pairs : List (String × Expression)}
    (h : tieColumns catalog row entries = .ok pairs) :
    pairs.map Prod.fst = entries.map Prod.snd := by
  induction entries generalizing pairs with
  | nil =>
    obtain rfl := pure_eq_ok.1 h
    rfl
  | cons pair rest ih =>
    obtain ⟨_, -, h⟩ := bind_eq_ok.1 h
    obtain ⟨others, hothers, h⟩ := bind_eq_ok.1 h
    obtain rfl := pure_eq_ok.1 h
    rw [List.map_cons, List.map_cons, ih hothers]

lemma succeeds_tieCondition (pairs : List (String × Expression)) :
    Succeeds (tieCondition name type table before pairs) ↔
      ∀ field ∈ pairs.map Prod.fst, (type.lookupField field).isSome := by
  induction pairs generalizing before with
  | nil => exact iff_of_true succeeds_pure nofun
  | cons pair rest ih =>
    have hcolumn : Succeeds (storedColumn name type table pair.1) ↔
        (type.lookupField pair.1).isSome := succeeds_storedColumn
    rw [List.map_cons, List.forall_mem_cons, ← hcolumn, tieCondition, succeeds_bind]
    simp only [ih]
    exact exists_and_right

/-- Ties can be made exactly if the references of a mapping and its fields are declared; a table of
pairs ties two identities. -/
lemma succeeds_tie {condition : Expression} (table : TableAlias) (counts : AliasCounts)
    (hc : catalog.Complete) (ht : catalog.type? name = some type)
    (htarget : catalog.type? edge.target = some target) :
    (∃ tied, tie catalog (startDraft name type handle condition) edge.join = .ok tied ∧
        Succeeds ((tied.condition edge.target target table).run counts)) ↔
      TiesDeclared catalog type edge := by
  cases hjoin : edge.join with
  | columns mapping =>
    have hdeclared : TiesDeclared catalog type edge ↔ ∀ pair ∈ mapping.entries,
        RefersTo type pair.1 ∧ (target.lookupField pair.2).isSome :=
      ⟨fun h => h mapping target hjoin htarget, fun h mapping' target' hj ht' => by
        cases hjoin.symm.trans hj
        cases htarget.symm.trans ht'
        exact h⟩
    have hsources : Succeeds (tieColumns catalog (startDraft name type handle condition)
        mapping.entries) ↔ ∀ pair ∈ mapping.entries, RefersTo type pair.1 := by
      rw [succeeds_tieColumns]
      exact forall₂_congr fun _ _ => succeeds_resolve_startDraft hc ht
    rw [hdeclared, forall₂_and, ← hsources]
    constructor
    · rintro ⟨tied, htied, h⟩
      obtain ⟨pairs, hpairs, htied⟩ := bind_eq_ok.1 htied
      obtain rfl := pure_eq_ok.1 htied
      have hfields := (succeeds_tieCondition pairs).1 (succeeds_run_lift.1 h)
      rw [tieColumns_fields hpairs, List.forall_mem_map] at hfields
      exact ⟨⟨pairs, hpairs⟩, hfields⟩
    · rintro ⟨⟨pairs, hpairs⟩, hfields⟩
      refine ⟨.columns pairs, bind_eq_ok.2 ⟨pairs, hpairs, rfl⟩, succeeds_run_lift.2 ?_⟩
      rw [succeeds_tieCondition, tieColumns_fields hpairs, List.forall_mem_map]
      exact hfields
  | through schema pairs source reached =>
    -- neither identity can be missing, so that there is nothing to declare
    refine iff_of_true ?_ fun _ _ hj => nomatch hjoin.symm.trans hj
    have hid : RefersTo type idKey := .inr (lookupField_idKey (hc.identity ht))
    obtain ⟨identity, hidentity⟩ := (succeeds_resolve_startDraft hc ht).2 hid
    refine ⟨_, bind_eq_ok.2 ⟨identity, hidentity, rfl⟩, ?_⟩
    rw [Tie.condition, succeeds_run_bind_of_ok (run_freshAlias_eq_ok.2 ⟨rfl, rfl⟩)]
    refine (succeeds_run_bind_of_forall fun _ _ => succeeds_run_pure).2 (succeeds_run_lift.2 ?_)
    exact succeeds_storedColumn.2 (lookupField_idKey (hc.identity htarget))

end Ties

lemma run_start (ht : catalog.type? name = some type) :
    (start catalog name none none).run counts
      = .ok (startDraft name type (nextAlias counts type.table) .true,
          countAlias counts type.table) := by
  simp only [start, requireType_ok.2 ht]
  rfl

lemma succeeds_start {tied : Tie} (ht : catalog.type? name = some type) :
    Succeeds ((start catalog name none (some tied)).run counts) ↔
      Succeeds ((tied.condition name type (nextAlias counts type.table)).run
        (countAlias counts type.table)) := by
  unfold start
  rw [succeeds_run_bind_of_ok (run_lift_eq_ok.2 ⟨requireType_ok.2 ht, rfl⟩),
    succeeds_run_bind_of_ok (run_freshAlias_eq_ok.2 ⟨rfl, rfl⟩)]
  exact succeeds_run_bind_of_forall fun _ _ => succeeds_run_pure

lemma succeeds_wrapIf (condition : Bool) (draft : Draft) (counts : AliasCounts) :
    Succeeds ((draft.wrapIf condition).run counts) := by
  cases condition with
  | false => exact succeeds_run_pure
  | true =>
    exact (succeeds_run_bind_of_ok (run_freshAlias_eq_ok.2 ⟨rfl, rfl⟩)).2 succeeds_run_pure

/-- Whatever an edge reaches can be put in a column. -/
lemma succeeds_edgeColumn (key : String) (cardinality : Cardinality) (reached : Draft)
    (counts : AliasCounts) : Succeeds ((edgeColumn key cardinality reached).run counts) := by
  unfold edgeColumn
  rw [succeeds_run_bind_of_ok (run_freshAlias_eq_ok.2 ⟨rfl, rfl⟩)]
  cases cardinality with
  | many => exact ⟨_, rfl⟩
  | one =>
    refine (succeeds_run_bind_of_forall fun _ _ => ⟨_, rfl⟩).2 ?_
    exact (succeeds_run_bind_of_forall fun _ _ => succeeds_run_pure).2 (succeeds_wrapIf _ _ _)

lemma follow_startDraft {condition : Expression} {key : String} {found : Edge × Tie}
    (ht : catalog.type? name = some type) (he : type.edges.get? key = some edge)
    (htarget : catalog.type? edge.target = some target) :
    follow catalog (startDraft name type handle condition) key = .ok found ↔
      ∃ tied, tie catalog (startDraft name type handle condition) edge.join = .ok tied ∧
        found = (edge, tied) := by
  have hedge : catalog.requireEdge name key = .ok (edge, target) := by
    refine bind_eq_ok.2 ⟨type, requireType_ok.2 ht, ?_⟩
    rw [he]
    exact bind_eq_ok.2 ⟨target, requireType_ok.2 htarget, rfl⟩
  unfold follow
  simp only [startDraft, bind_eq_ok, hedge, Except.ok.injEq, exists_eq_left', pure_eq_ok]
  exact exists_congr fun tied => and_congr_right fun _ => eq_comm

/-- What an edge reaches can be read and attached to a row if its tie has a condition on it. -/
lemma succeeds_reach {row : Draft} {tied : Tie} (htarget : catalog.type? edge.target = some target)
    (key : String) : Succeeds ((do
        let first ← start catalog edge.target none (some tied)
        let reached ← pipeline catalog first []
        return row.attach (← edgeColumn key edge.cardinality reached) : Build Draft).run counts) ↔
      Succeeds ((tied.condition edge.target target (nextAlias counts target.table)).run
        (countAlias counts target.table)) := by
  refine (succeeds_run_bind_of_forall fun first started => ?_).trans (succeeds_start htarget)
  rw [pipeline, succeeds_run_bind_of_ok (run_pure_eq_ok.2 ⟨rfl, rfl⟩)]
  exact (succeeds_run_bind_of_forall fun _ _ => succeeds_run_pure).2 (succeeds_edgeColumn _ _ _ _)

/-- An edge can be followed from the objects of a type exactly if its tie can be made. -/
lemma succeeds_select (hc : catalog.Complete) (ht : catalog.type? name = some type) {key : String}
    (he : type.edges.get? key = some edge) :
    Succeeds (select catalog ⟨⟨name, none⟩, [.edge key []]⟩) ↔ TiesDeclared catalog type edge := by
  obtain ⟨target, htarget⟩ := hc.target ht he
  rw [select, succeeds_map, StateT.run'_eq]
  refine succeeds_map.trans ?_
  rw [Compile.draft, succeeds_run_bind_of_ok (run_start ht), pipeline]
  refine (succeeds_run_bind_of_forall fun _ _ => succeeds_run_pure).trans ?_
  -- a draft that was just started is not wrapped
  rw [operation, succeeds_run_bind_of_ok (a := startDraft _ _ _ _) rfl, succeeds_run_bind]
  simp only [run_lift_eq_ok, follow_startDraft ht he htarget]
  constructor
  · rintro ⟨_, _, ⟨⟨tied, htied, rfl⟩, rfl⟩, h⟩
    exact (succeeds_tie _ _ hc ht htarget).1 ⟨tied, htied, (succeeds_reach htarget key).1 h⟩
  · intro h
    obtain ⟨tied, htied, h⟩ := (succeeds_tie _ _ hc ht htarget).2 h
    exact ⟨_, _, ⟨⟨tied, htied, rfl⟩, rfl⟩, (succeeds_reach htarget key).2 h⟩

/-! ### What the check leaves open -/

/-- With a configuration that was resolved, only column mappings can be wrong: tables can be
created exactly if every field that a foreign key starts from is declared, and an edge can be
followed exactly if its mapping ties what can be referred to at either end. -/
theorem Configuration.succeeds_iff_of_resolve {configuration : Configuration}
    {environment : Environment} {settings : Settings}
    (h : configuration.resolve environment = .ok settings) :
    (Succeeds (tableStatements settings.catalog) ↔
      ∀ name type, settings.catalog.type? name = some type → ∀ key edge,
        type.edges.get? key = some edge → KeyDeclared settings.catalog type edge) ∧
    ∀ name type, settings.catalog.type? name = some type → ∀ key edge,
      type.edges.get? key = some edge →
        (Succeeds (select settings.catalog ⟨⟨name, none⟩, [.edge key []]⟩) ↔
          TiesDeclared settings.catalog type edge) := by
  have hc := (resolve_ok h).2
  exact ⟨succeeds_tableStatements hc, fun _ _ ht _ _ he => succeeds_select hc ht he⟩

/-- Users whose field `friend_id`, if they have it, holds the identity of a friend. -/
def befriended (fields : List String) : ObjectType :=
  fields.foldl (fun type field => type.withField field .bigint true)
    ((ObjectType.named "User").withField "id" .bigint false)
  |>.withEdge "friend"
    { target := "User", cardinality := .one, join := .columns (.ofList [("friend_id", "id")]) }

/-- A configuration with no other type than that of these users. -/
def friends (fields : List String) : Configuration where
  version := Configuration.currentVersion
  connectionUri := .plain "postgresql://localhost/objects"
  catalog := Catalog.empty.withType "User" (befriended fields)

/-- Where the field is declared, the tables can be created and the edge can be followed. -/
theorem Configuration.succeeds_iff_of_resolve_friends :
    ∃ settings, (friends ["friend_id"]).resolve [] = .ok settings ∧
      Succeeds (tableStatements settings.catalog) ∧
      Succeeds (select settings.catalog ⟨⟨"User", none⟩, [.edge "friend" []]⟩) := by
  have h : (friends ["friend_id"]).resolve [] = .ok
    ⟨(friends ["friend_id"]).catalog, {}, "postgresql://localhost/objects", {}⟩ := rfl
  obtain ⟨htables, hselect⟩ := succeeds_iff_of_resolve h
  refine ⟨_, h, htables.2 ?_, (hselect "User" _ rfl "friend" _ rfl).2 ?_⟩
  · intro name type ht key edge he mapping target source hj _ htarget hs
    obtain ⟨rfl, rfl⟩ := Prod.mk.inj (List.mem_singleton.1 (SortedMap.get?_eq_some.1 ht))
    obtain ⟨rfl, rfl⟩ := Prod.mk.inj (List.mem_singleton.1 (OrderedMap.get?_eq_some.1 he))
    cases hj
    cases htarget
    cases hs
    rfl
  · intro mapping target hj htarget pair hp
    cases hj
    cases htarget
    obtain rfl := List.mem_singleton.1 hp
    exact ⟨.inr rfl, rfl⟩

/-- Where it is not, the configuration is resolved all the same, and either fails. -/
theorem Configuration.resolve_undeclared : ∃ settings, (friends []).resolve [] = .ok settings ∧
    tableStatements settings.catalog = .error (.fieldNotFound "friend_id" (.type "User")) ∧
    select settings.catalog ⟨⟨"User", none⟩, [.edge "friend" []]⟩
      = .error (.fieldNotFound "friend_id" (.type "User")) :=
  ⟨_, rfl, rfl, rfl⟩

end ObjectGraph
