/-
# Identifiers of aliases

An alias is written as its name, with its index behind it unless that is zero.  Two numbered
aliases, or two that are not, are written alike only if they are the same; but a name may look
like another name with a number.  All names come from the catalog, but for those of derived
tables, so it can be told from a catalog that its aliases are never written alike.
-/
import ObjectGraph.Proofs.Compile.Scope
import ObjectGraph.Proofs.Sql.Occurrences
import ObjectGraph.Proofs.Sql.Scan

namespace ObjectGraph

open Sql (Bindings Expression Select TableAlias)

/-! ### Numbers behind names -/

/-- A name with a number behind it. -/
def numbered (name : String) (n : Nat) : String := name ++ "_" ++ toString n

lemma toString_injective {n m : Nat} (h : toString n = toString m) : n = m := by
  simp only [Nat.toString_eq_ofList_toDigits] at h
  have hdigits : Nat.toDigits 10 n = Nat.toDigits 10 m := String.ofList_injective h
  have hparsed := congrArg (fun digits => Nat.ofDigitChars 10 digits 0) hdigits
  simpa using hparsed

/-- What stands behind the last one of a mark determines what stands before it. -/
lemma append_mark_injective {mark : Char} {name other digits more : List Char}
    (hd : mark ∉ digits) (hm : mark ∉ more) (h : name ++ mark :: digits = other ++ mark :: more) :
    name = other ∧ digits = more := by
  rcases List.append_eq_append_iff.1 h with ⟨between, rfl, hb⟩ | ⟨between, rfl, hb⟩
  all_goals cases between with
    | nil =>
      obtain rfl := (List.cons.inj hb).2
      exact ⟨by simp, rfl⟩
    | cons c rest => ?_
  · exact absurd ((List.cons.inj hb).2 ▸ List.mem_append_right rest List.mem_cons_self) hd
  · exact absurd ((List.cons.inj hb).2 ▸ List.mem_append_right rest List.mem_cons_self) hm

lemma numbered_injective {name other : String} {n m : Nat}
    (h : numbered name n = numbered other m) : name = other ∧ n = m := by
  have hlist : name.toList ++ '_' :: (toString n).toList
      = other.toList ++ '_' :: (toString m).toList := by
    simpa [numbered] using congrArg String.toList h
  obtain ⟨hname, hdigits⟩ := append_mark_injective (Sql.Fragment.not_mem_toString rfl n)
    (Sql.Fragment.not_mem_toString rfl m) hlist
  exact ⟨String.toList_injective hname, toString_injective (String.toList_injective hdigits)⟩

namespace Sql.TableAlias

/-- Whether an alias is the first one of a name that is the name of another one with its number. -/
def Imitates (handle other : TableAlias) : Prop :=
  handle.index = 0 ∧ other.index ≠ 0 ∧ handle.name = numbered other.name other.index

variable {handle other : TableAlias}

lemma identifier_of_eq_zero (h : handle.index = 0) : handle.identifier = handle.name :=
  if_pos h

lemma identifier_of_ne_zero (h : handle.index ≠ 0) :
    handle.identifier = numbered handle.name handle.index :=
  if_neg h

/-- Different aliases are written alike only if a name has the number of the other in it. -/
lemma identifier_eq_iff (hne : handle ≠ other) :
    handle.identifier = other.identifier ↔ handle.Imitates other ∨ other.Imitates handle := by
  by_cases h : handle.index = 0 <;> by_cases ho : other.index = 0
  · rw [identifier_of_eq_zero h, identifier_of_eq_zero ho]
    have hname : handle.name ≠ other.name := fun hn => hne (by cases handle; cases other; simp_all)
    simp [Imitates, h, ho, hname]
  · rw [identifier_of_eq_zero h, identifier_of_ne_zero ho]
    simp [Imitates, h, ho]
  · rw [identifier_of_ne_zero h, identifier_of_eq_zero ho, eq_comm]
    simp [Imitates, h, ho]
  · rw [identifier_of_ne_zero h, identifier_of_ne_zero ho]
    refine iff_of_false (fun he => hne ?_) (by simp [Imitates, h, ho])
    obtain ⟨hname, hindex⟩ := numbered_injective he
    cases handle
    cases other
    simp_all

end Sql.TableAlias

/-! ### Names of aliases -/

/-- The table of pairs that a join goes through, if it does. -/
def Join.tables : Join → List String
  | .columns _ => []
  | .through _ table _ _ => [table]

namespace Catalog

/-- The names that aliases are made of: those of tables and edges, and two of their own. -/
def aliasNames (catalog : Catalog) : List String :=
  "t" :: "universe" :: catalog.types.entries.flatMap fun (_, type) =>
    type.table :: type.edges.entries.flatMap fun (name, edge) => name :: edge.join.tables

/-- Whether none of these names is another one with a number. -/
def Unnumbered (catalog : Catalog) : Prop :=
  ∀ name ∈ catalog.aliasNames, ∀ n, n ≠ 0 → numbered name n ∉ catalog.aliasNames

lemma unnumbered_of_forall_not_mem {catalog : Catalog}
    (h : ∀ name ∈ catalog.aliasNames, '_' ∉ name.toList) : catalog.Unnumbered := by
  intro name _ n _ hn
  exact h _ hn (by simp [numbered])

end Catalog

namespace Compile

variable {counts last between : AliasCounts} {catalog : Catalog} {draft base result : Draft}
  {name : String} {type : ObjectType} {edge : Edge}

lemma table_mem_aliasNames (ht : catalog.type? name = some type) :
    type.table ∈ catalog.aliasNames := by
  have hentry := SortedMap.get?_eq_some.1 ht
  simp only [Catalog.aliasNames, List.mem_cons, List.mem_flatMap]
  exact .inr (.inr ⟨(name, type), hentry, .inl rfl⟩)

lemma edge_mem_aliasNames {key : String} (he : catalog.edge? name key = some edge) :
    key ∈ catalog.aliasNames ∧ edge.join.tables ⊆ catalog.aliasNames := by
  obtain ⟨type, ht, hedge⟩ := Option.bind_eq_some_iff.1 he
  have hentry := SortedMap.get?_eq_some.1 ht
  have hmem := OrderedMap.get?_eq_some.1 hedge
  simp only [Catalog.aliasNames, List.subset_def, List.mem_cons, List.mem_flatMap]
  exact ⟨.inr (.inr ⟨(name, type), hentry, .inr ⟨(key, edge), hmem, .inl rfl⟩⟩),
    fun hn => .inr (.inr ⟨(name, type), hentry, .inr ⟨(key, edge), hmem, .inr hn⟩⟩)⟩

/-- Whether all aliases that were handed out have names of the catalog. -/
def DrawnFrom (catalog : Catalog) (counts : AliasCounts) : Prop :=
  ∀ handle, Issued counts handle → handle.name ∈ catalog.aliasNames

lemma DrawnFrom.count (h : DrawnFrom catalog counts) (hn : name ∈ catalog.aliasNames) :
    DrawnFrom catalog (countAlias counts name) := by
  intro handle hi
  rcases issued_countAlias.1 hi with rfl | hi
  · exact hn
  · exact h handle hi

/-- A property of the uses of names that still holds after one more use of a name of the catalog. -/
def Persists (catalog : Catalog) (P : AliasCounts → Prop) : Prop :=
  ∀ ⦃counts : AliasCounts⦄ ⦃name : String⦄, name ∈ catalog.aliasNames → P counts →
    P (countAlias counts name)

lemma persists_drawnFrom : Persists catalog (DrawnFrom catalog) :=
  fun _ _ hn h => h.count hn

lemma persists_issued (catalog : Catalog) (handle : TableAlias) :
    Persists catalog (Issued · handle) :=
  fun _ _ _ h => grows_countAlias _ _ handle h

namespace Persists

variable {P : AliasCounts → Prop}

lemma derived (hP : Persists catalog P) (h : P counts) : P (countAlias counts "t") :=
  hP (by simp [Catalog.aliasNames]) h

lemma wraps {condition : Bool} (hP : Persists catalog P) (h : P counts)
    (hw : Draft.Wraps counts draft condition base last) : P last := by
  cases hw with
  | kept => exact h
  | wrapped => exact hP.derived h

end Persists

/-- The table of pairs that a tie goes through, if it does. -/
def Tie.tables : Tie → List String
  | .columns _ => []
  | .through pairs _ _ _ => [pairs.table]

lemma tables_of_tie {join : Join} {tied : Tie} (h : tie catalog draft join = .ok tied) :
    tied.tables = join.tables := by
  cases join <;>
    · obtain ⟨_, -, h⟩ := bind_eq_ok.1 h
      obtain rfl := pure_eq_ok.1 h
      rfl

section Builds

variable {P : AliasCounts → Prop}

lemma start_persists {ids : Option (List Int64)} {tied : Option Tie} (hP : Persists catalog P)
    (ht : ∀ tie ∈ tied, tie.tables ⊆ catalog.aliasNames)
    (h : (start catalog name ids tied).run counts = .ok (result, last)) (hc : P counts) :
    P last := by
  obtain ⟨type, e, chosen, htype, htied, -, rfl⟩ := start_ok h
  have hstarted : P (countAlias counts type.table) := hP (table_mem_aliasNames htype) hc
  cases tied with
  | none =>
    obtain ⟨-, rfl⟩ := run_pure_eq_ok.1 htied
    exact hstarted
  | some tie =>
    cases tie with
    | columns pairs =>
      obtain ⟨-, rfl⟩ := run_lift_eq_ok.1 htied
      exact hstarted
    | through pairs source target row =>
      simp only [tiedCondition, Tie.condition, run_bind_eq_ok, run_freshAlias_eq_ok,
        run_lift_eq_ok, run_pure_eq_ok] at htied
      obtain ⟨_, _, ⟨rfl, rfl⟩, _, _, ⟨-, rfl⟩, -, rfl⟩ := htied
      exact hP (ht _ rfl List.mem_cons_self) hstarted

lemma edgeColumn_persists {cardinality : Cardinality} {reached : Draft} {column : Column}
    (hP : Persists catalog P) (h : (edgeColumn name cardinality reached).run counts
      = .ok (column, last)) (hc : P (countAlias counts name)) : P last := by
  rcases edgeColumn_ok h with ⟨-, rfl, -⟩ | ⟨-, first, hfirst, -⟩
  · exact hc
  · obtain ⟨_, hw, -⟩ := Draft.take_ok hfirst
    exact hP.wraps hc hw

mutual

/-- Every operation makes aliases of the names of the catalog only, so that what persists holds
after it. -/
lemma operation_persists (hP : Persists catalog P) (step : Operation) {draft result : Draft}
    {counts last : AliasCounts}
    (ho : (operation catalog draft step).run counts = .ok (result, last)) (hc : P counts) :
    P last := by
  cases operation_ok ho with
  | project | rename => exact hc
  | filter hw | take hw | skip hw | count hw | orderBy hw => exact hP.wraps hc hw
  | nest | groupBy => exact hP.derived hc
  | edge hw hf hstart hp hcolumn =>
    obtain ⟨_, _, -, hedge, -, htie⟩ := follow_ok hf
    -- aliases of the target, of a table of pairs if there is one, and of the edge itself
    obtain ⟨hkey, htables⟩ := edge_mem_aliasNames hedge
    have hstarted := start_persists hP (by rintro _ ⟨⟩; exact tables_of_tie htie ▸ htables) hstart
      (hP.wraps hc hw)
    exact edgeColumn_persists hP hcolumn (hP hkey (pipeline_persists hP _ hp hstarted))
  | union hb => exact hP.derived (branches_persists hP _ hb hc)

lemma pipeline_persists (hP : Persists catalog P) : ∀ (steps : List Operation)
    {draft result : Draft} {counts last : AliasCounts},
    (pipeline catalog draft steps).run counts = .ok (result, last) → P counts → P last
  | [], _, _, _, _, hp, hc => (run_pure_eq_ok.1 hp).2 ▸ hc
  | step :: rest, _, _, _, _, hp, hc => by
    obtain ⟨_, _, ho, hp⟩ := pipeline_cons_ok hp
    exact pipeline_persists hP rest hp (operation_persists hP step ho hc)

lemma branches_persists (hP : Persists catalog P) : ∀ (queries : List Query)
    {expected : List String} {drafts : List Draft} {counts last : AliasCounts},
    (branches catalog expected queries).run counts = .ok (drafts, last) → P counts → P last
  | [], _, _, _, _, hb, hc => (run_pure_eq_ok.1 hb).2 ▸ hc
  | ⟨source, operations⟩ :: rest, _, _, _, _, hb, hc => by
    obtain ⟨_, _, _, _, _, hstart, hp, -, ho, -⟩ := branches_cons_ok hb
    have hstarted := start_persists hP (by simp) hstart hc
    exact branches_persists hP rest ho (pipeline_persists hP operations hp hstarted)

end

end Builds

/-! ### Whole plans -/

lemma draft_wellScoped {query : Query}
    (h : (Compile.draft catalog query).run [] = .ok (result, last)) :
    result.WellScoped last [] ∧ DrawnFrom catalog last := by
  obtain ⟨first, started, hstart, hp⟩ := draft_ok h
  have hnone : Settled [] [] := by simp [Settled]
  have hempty : DrawnFrom catalog [] := fun _ hi => absurd hi (Nat.not_lt_zero _)
  obtain ⟨hg, hfirst⟩ := start_wellScoped hnone (by simp) hstart
  obtain ⟨-, hresult⟩ := pipeline_wellScoped query.operations hfirst (hnone.grow hg) hp
  exact ⟨hresult, pipeline_persists persists_drawnFrom query.operations hp
    (start_persists persists_drawnFrom (by simp) hstart hempty)⟩

lemma plan_ok {query : Query} {p : Plan} (h : plan catalog query = .ok p) :
    ∃ result last, (Compile.draft catalog query).run [] = .ok (result, last) ∧
      p.select = asArray result.finish (nextAlias last "universe") := by
  obtain ⟨select, hselect, rfl⟩ := map_eq_ok.1 h
  rw [StateT.run'_eq] at hselect
  obtain ⟨⟨_, _⟩, hbuilt, rfl⟩ := map_eq_ok.1 hselect
  simp only [run_bind_eq_ok, run_freshAlias_eq_ok] at hbuilt
  obtain ⟨result, last, hd, _, _, ⟨rfl, rfl⟩, hpure⟩ := hbuilt
  exact ⟨result, last, hd, (run_pure_eq_ok.1 hpure).1⟩

lemma mem_aliases_asArray {rows : Select} {handle other : TableAlias} :
    other ∈ (asArray rows handle).aliases ↔ other = handle ∨ other ∈ rows.aliases := by
  simp only [asArray, Select.simple, Select.aliases, Sql.aliasesFrom, Sql.Relation.aliases,
    Sql.SelectList.aliases, Sql.aliasesOutputs, Expression.jsonArray, Expression.jsonRows,
    Expression.aliases, Sql.TableReference.aliases, Sql.aliasesList, Sql.aliasesKeys,
    Expression.true, List.mem_append, List.mem_cons, List.not_mem_nil, or_false]
  tauto

/-- All aliases of a plan were handed out, so their names are those of the catalog. -/
lemma name_mem_aliasNames {query : Query} {p : Plan} (h : plan catalog query = .ok p)
    {handle : TableAlias} (ha : handle ∈ p.select.aliases) : handle.name ∈ catalog.aliasNames := by
  obtain ⟨result, last, hd, hselect⟩ := plan_ok h
  obtain ⟨hresult, hdrawn⟩ := draft_wellScoped hd
  obtain ⟨hscoped, hissued⟩ := Draft.finish_fits hresult
  rw [hselect, mem_aliases_asArray] at ha
  rcases ha with rfl | ha
  · simp [nextAlias, Catalog.aliasNames]
  · exact hdrawn handle (hissued handle (hscoped.aliases_subset ha))

/-- Different aliases of a plan are written alike only if one of them is the first one of a name
that is the name of the other with its number.  Both names are among those of the catalog, so
that all aliases are told apart if no name of the catalog is another one with a number. -/
theorem plan_identifiers {query : Query} {p : Plan} (h : plan catalog query = .ok p) :
    (∀ handle ∈ p.select.aliases, ∀ other ∈ p.select.aliases, handle ≠ other →
      (handle.identifier = other.identifier ↔ handle.Imitates other ∨ other.Imitates handle)) ∧
    (∀ handle ∈ p.select.aliases, handle.name ∈ catalog.aliasNames) ∧
    (catalog.Unnumbered → ∀ handle ∈ p.select.aliases, ∀ other ∈ p.select.aliases,
      handle.identifier = other.identifier → handle = other) := by
  refine ⟨fun _ _ _ _ => TableAlias.identifier_eq_iff, fun _ => name_mem_aliasNames h,
    fun hc handle ha other ho he => ?_⟩
  by_contra hne
  have hname := name_mem_aliasNames h ha
  have hother := name_mem_aliasNames h ho
  rcases (TableAlias.identifier_eq_iff hne).1 he with ⟨-, hi, hn⟩ | ⟨-, hi, hn⟩
  · exact hc _ hother _ hi (hn ▸ hname)
  · exact hc _ hname _ hi (hn ▸ hother)

/-- No name of the social graph has a number behind it. -/
theorem plan_identifiers_reviewsOfFriends :
    ∃ p, plan SocialGraph.catalog reviewsOfFriends = .ok p ∧
      ∀ handle ∈ p.select.aliases, ∀ other ∈ p.select.aliases,
        handle.identifier = other.identifier → handle = other := by
  have hok : (plan SocialGraph.catalog reviewsOfFriends).isOk = true := by decide +kernel
  have hnames : ∀ name ∈ SocialGraph.catalog.aliasNames, '_' ∉ name.toList := by decide +kernel
  obtain ⟨p, h⟩ := exists_of_isOk hok
  exact ⟨p, h, (plan_identifiers h).2.2 (Catalog.unnumbered_of_forall_not_mem hnames)⟩

/-- Users and their accounts, in a table whose name is that of users with a number. -/
def accounts : Catalog :=
  let user := ObjectType.named "User"
    |>.withField "id" .bigint false
    |>.withEdge "accounts"
      { target := "Account", cardinality := .many,
        join := .columns (.ofList [("id", "owner_id")]) }
  let account := (ObjectType.named "Account").withTable "user_1"
    |>.withField "id" .bigint false
    |>.withField "owner_id" .bigint true
    |>.withEdge "owner"
      { target := "User", cardinality := .one,
        join := .columns (.ofList [("owner_id", "id")]) }
  Catalog.empty |>.withType "User" user |>.withType "Account" account

/-- The owners of the accounts of users. -/
def ownersOfAccounts : Query :=
  ⟨{ objectType := "User" }, [.edge "accounts" [.edge "owner" []]]⟩

/-- An owner is read through the second alias of users, which hides the first one of accounts. -/
theorem plan_identifiers_hidden : ∃ p, plan accounts ownersOfAccounts = .ok p ∧
    ⟨"user", 1⟩ ∈ p.select.aliases ∧ ⟨"user_1", 0⟩ ∈ p.select.aliases ∧
      (⟨"user", 1⟩ : TableAlias).identifier = (⟨"user_1", 0⟩ : TableAlias).identifier :=
  ⟨_, rfl, by decide +kernel, by decide +kernel, by decide +kernel⟩

end Compile
end ObjectGraph
