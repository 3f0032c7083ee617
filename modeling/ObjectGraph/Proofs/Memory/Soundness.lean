/-
# Queries that compile do not go wrong

A query that has a select can be run in memory on the same catalog.  The compiler follows the
type of the rows through the operations before anything is run; a run follows it beside the rows
themselves, together with the object each row was made from.  Where the compiler knows a type,
the run has the same one and an object behind every row, so that every edge the compiler follows
can be followed.  What is left are the failures of the resolver itself.
-/
import ObjectGraph.Memory.Run
import ObjectGraph.Proofs.Compile.Build
import ObjectGraph.Proofs.StableSort
import ObjectGraph.Samples.SocialGraph

namespace ObjectGraph

open Compile (AliasCounts Draft branches)

/-! ### Failures of a resolver -/

namespace Resolver

/-- The errors that a call to a resolver may end in: the reason of a call that fails, and the
request to list all objects of a type where the resolver cannot. -/
inductive Causes (resolver : Resolver) : RunError → Prop
  | object {history : History} {type : String} {id : Int64} {reason : String}
    (h : resolver.object history type id = .error reason) : Causes resolver (.unresolved reason)
  | edge {history : History} {type : String} {item : Item} {edge reason : String}
    (h : resolver.edge history type item edge = .error reason) :
    Causes resolver (.unresolved reason)
  | all {answer : History → String → Except String (List Int64)} {history : History}
    {type reason : String} (ha : resolver.all = some answer)
    (h : answer history type = .error reason) : Causes resolver (.unresolved reason)
  | notListed {type : String} (h : resolver.all = none) : Causes resolver (.notListed type)

/-- No call to the resolver fails. -/
def NeverFails (resolver : Resolver) : Prop := ∀ e, ¬ resolver.Causes e

lemma neverFails_stable (object : String → Int64 → Option Item)
    (edge : String → Item → String → List Int64) (all : String → List Int64) :
    (stable (fun type id => .ok (object type id)) (fun type item name => .ok (edge type item name))
      (some fun type => .ok (all type))).NeverFails := by
  rintro _ (⟨⟨⟩⟩ | ⟨⟨⟩⟩ | ⟨ha, h⟩ | ⟨⟨⟩⟩)
  obtain rfl := Option.some.inj ha
  cases h

end Resolver

/-! ### Runs that only the resolver can stop -/

namespace Run

variable {α β : Type} {resolver : Resolver}

/-- After any calls, a run gives a result with a property, or the resolver stops it. -/
def Safe (resolver : Resolver) (run : Run α) (holds : α → Prop) : Prop :=
  ∀ history : History,
    match (run.run.run history).1 with
    | .ok a => holds a
    | .error e => resolver.Causes e

lemma Safe.pure {holds : α → Prop} {a : α} (h : holds a) :
    Safe resolver (Pure.pure a) holds := fun _ => h

lemma Safe.fail {holds : α → Prop} {e : RunError} (h : resolver.Causes e) :
    Safe resolver (fail e) holds := fun _ => h

lemma Safe.mono {holds goal : α → Prop} {x : Run α} (hx : Safe resolver x holds)
    (h : ∀ a, holds a → goal a) : Safe resolver x goal := by
  intro history
  have hx := hx history
  split at hx
  · rename_i a ha
    simpa only [ha] using h a hx
  · rename_i e he
    simpa only [he] using hx

lemma Safe.bind {holds : α → Prop} {goal : β → Prop} {x : Run α} {f : α → Run β}
    (hx : Safe resolver x holds) (hf : ∀ a, holds a → Safe resolver (f a) goal) :
    Safe resolver (x >>= f) goal := by
  intro history
  have hx := hx history
  rw [run_bind]
  rcases hr : x.run.run history with ⟨e | a, later⟩
  · simpa only [hr] using hx
  · simp only [hr] at hx
    exact hf a hx later

lemma Safe.lift {holds : α → Prop} {x : Except RunError α} (hx : ∃ a, x = .ok a ∧ holds a) :
    Safe resolver (liftM x) holds := by
  obtain ⟨a, rfl, ha⟩ := hx
  exact fun _ => ha

lemma Safe.forEach {f : α → Run β} {l : List α} {holds : β → Prop}
    (hf : ∀ a ∈ l, Safe resolver (f a) holds) :
    Safe resolver (forEach f l) (∀ b ∈ ·, holds b) := by
  induction l with
  | nil => exact Safe.pure (by simp)
  | cons a rest ih =>
    refine Safe.bind (hf a (by simp)) fun b hb => ?_
    refine Safe.bind (ih fun a ha => hf a (by simp [ha])) fun bs hbs => Safe.pure ?_
    simpa using ⟨hb, hbs⟩

lemma Safe.ask {call : Except String α → Call} {answer : History → Except String α}
    (h : ∀ history reason, answer history = .error reason → resolver.Causes (.unresolved reason)) :
    Safe resolver (ask call answer) fun a => ∃ history, answer history = .ok a := by
  intro history
  rw [run_ask]
  cases ha : answer history with
  | error reason => exact h history reason ha
  | ok a => exact ⟨history, ha⟩

end Run

open Run (Safe)

/-! ### The type of the rows -/

namespace Rows

/-- The rows are objects of a type the compiler knows; where it knows none, nothing is said. -/
def Typed (rows : Rows) (type : Option String) : Prop :=
  ∀ name, type = some name →
    rows.type = some name ∧ ∀ row ∈ rows.rows, row.origin.isSome

variable {rows other : Rows} {type : Option String}

lemma typed_none : rows.Typed none := by
  rintro name ⟨⟩

lemma Typed.mapItems (h : rows.Typed type) (f : Item → Item) : (rows.mapItems f).Typed type := by
  intro name hn
  obtain ⟨ht, hr⟩ := h name hn
  refine ⟨ht, fun row hm => ?_⟩
  obtain ⟨before, hb, rfl⟩ := List.mem_map.1 hm
  exact hr before hb

/-- Rows that were all there before have the type they had. -/
lemma Typed.subset (h : rows.Typed type) (ht : other.type = rows.type)
    (hs : ∀ row ∈ other.rows, row ∈ rows.rows) : other.Typed type := by
  intro name hn
  obtain ⟨htype, hr⟩ := h name hn
  exact ⟨ht.trans htype, fun row hm => hr row (hs row hm)⟩

lemma Typed.append {branch : Option String} (h : rows.Typed type) (ho : other.Typed branch) :
    (rows.append other).Typed (if branch = type then type else none) := by
  split
  · rename_i heq
    subst heq
    intro name hn
    obtain ⟨ht, hr⟩ := h name hn
    obtain ⟨ht', hr'⟩ := ho name hn
    refine ⟨by simp [Rows.append, ht, ht'], fun row hm => ?_⟩
    rcases List.mem_append.1 hm with hm | hm
    · exact hr row hm
    · exact hr' row hm
  · exact typed_none

end Rows

open Rows (typed_none)

namespace Graph

variable {graph : Graph} {counts last : AliasCounts} {rows : Rows}

/-! ### Where rows come from -/

/-- The objects that are there are found if they are not checked, or if all of them fit. -/
lemma checkObjects_eq_ok {name : String} {type : ObjectType} {entries : List (Int64 × Option Item)}
    (h : graph.validates = true → ∀ entry ∈ entries, ∀ item, entry.2 = some item →
      type.problem? item.members.entries = none) :
    graph.checkObjects name type entries
      = .ok ((entries.filterMap Prod.snd).map Row.ofObject) := by
  induction entries with
  | nil => rfl
  | cons entry rest ih =>
    have hrest := ih fun hv entry hm => h hv entry (List.mem_cons_of_mem _ hm)
    obtain ⟨id, _ | item⟩ := entry
    · exact hrest
    · simp only [checkObjects, hrest]
      split
      · rename_i hv
        rw [h hv _ List.mem_cons_self item rfl]
        rfl
      · rfl

/-- However they are checked, nothing but the objects that are there is found. -/
lemma eq_of_checkObjects {name : String} {type : ObjectType}
    {entries : List (Int64 × Option Item)} {objects : List Row}
    (h : graph.checkObjects name type entries = .ok objects) :
    objects = (entries.filterMap Prod.snd).map Row.ofObject := by
  induction entries generalizing objects with
  | nil => exact (Except.ok.inj h).symm
  | cons entry rest ih =>
    obtain ⟨id, _ | item⟩ := entry
    · exact ih h
    · have hcons : (do return .ofObject item :: (← graph.checkObjects name type rest) :
          Except RunError (List Row)) = .ok objects := by
        simp only [checkObjects] at h
        split at h
        · split at h
          · cases h
          · exact h
        · exact h
      obtain ⟨others, hothers, h⟩ := Compile.bind_eq_ok.1 hcons
      obtain rfl := Except.ok.inj h
      rw [ih hothers]
      rfl

/-- What is asked for by identities is what the resolver has for one of them. -/
lemma forEach_askObject_safe (resolver : Resolver) (name : String) (ids : List Int64) :
    Safe resolver (Run.forEach (Run.askObject resolver name) ids) fun found =>
      ∀ answer ∈ found, ∃ id history, resolver.object history name id = .ok answer := by
  refine Run.Safe.forEach fun id _ => ?_
  have hask : Safe resolver (Run.askObject resolver name id) fun answer =>
      ∃ history, resolver.object history name id = .ok answer :=
    Run.Safe.ask fun _ _ h => .object h
  exact hask.mono fun answer hanswer => ⟨id, hanswer⟩

lemma resolveObjects_safe (hv : graph.validates = false) {name : String} {type : ObjectType}
    (ht : graph.catalog.type? name = some type) (ids : List Int64) :
    Safe graph.resolver (graph.resolveObjects name ids) (∀ row ∈ ·, row.origin.isSome) := by
  unfold resolveObjects
  rw [ht]
  refine Run.Safe.bind (forEach_askObject_safe graph.resolver name ids) fun found _ => ?_
  refine Run.Safe.lift ⟨_, checkObjects_eq_ok (by simp [hv]), ?_⟩
  intro row hm
  obtain ⟨item, -, rfl⟩ := List.mem_map.1 hm
  rfl

lemma typed_of_origins {name : String} {objects : List Row}
    (h : ∀ row ∈ objects, row.origin.isSome) :
    (Rows.mk objects (some name)).Typed (some name) := by
  rintro _ ⟨⟩
  exact ⟨rfl, h⟩

lemma askAll_safe (type : String) :
    Safe graph.resolver (Run.askAll graph.resolver type) fun _ => True := by
  unfold Run.askAll
  split
  · rename_i answer ha
    exact (Run.Safe.ask fun _ _ h => .all ha h).mono fun _ _ => trivial
  · rename_i ha
    exact Run.Safe.fail (.notListed ha)

lemma resolveSource_safe (hv : graph.validates = false) {source : Source} {type : ObjectType}
    (ht : graph.catalog.type? source.objectType = some type) :
    Safe graph.resolver (graph.resolveSource source) (·.Typed source.objectType) := by
  have hobjects : ∀ ids : List Int64, Safe graph.resolver (do
      return ⟨← graph.resolveObjects source.objectType ids, some source.objectType⟩ : Run Rows)
      (·.Typed source.objectType) := fun ids =>
    Run.Safe.bind (resolveObjects_safe hv ht ids) fun objects ho =>
      Run.Safe.pure (typed_of_origins ho)
  unfold resolveSource
  cases source.ids with
  | some ids => exact Run.Safe.bind (Run.Safe.pure trivial) fun ids (_ : True) => hobjects ids
  | none => exact Run.Safe.bind (askAll_safe _) fun ids _ => hobjects ids

lemma edgeOf_ok {type name : String} {edge : Edge} (ht : rows.type = some type)
    (he : graph.catalog.edge? type name = some edge) :
    graph.edgeOf rows name = .ok (type, edge) := by
  unfold edgeOf
  rw [ht]
  simp only [he]

lemma reach_safe (hv : graph.validates = false) {type name : String} {edge : Edge}
    {target : ObjectType} (ht : graph.catalog.type? edge.target = some target) {row : Row}
    (hr : row.origin.isSome) :
    Safe graph.resolver (graph.reach type name edge row) (·.Typed edge.target) := by
  obtain ⟨origin, ho⟩ := Option.isSome_iff_exists.1 hr
  unfold reach
  rw [ho]
  have hask : Safe graph.resolver (Run.askEdge graph.resolver type origin name) fun _ => True :=
    (Run.Safe.ask fun _ _ h => .edge h).mono fun _ _ => trivial
  refine Run.Safe.bind hask fun ids _ => ?_
  exact Run.Safe.bind (resolveObjects_safe hv ht ids) fun objects hobjects =>
    Run.Safe.pure (typed_of_origins hobjects)

lemma typed_attach {type : Option String} {name : String} (ht : type = some name)
    (h : rows.Typed type) (edge : String) (cardinality : Cardinality) (reached : List (List Item)) :
    (Rows.mk (List.zipWith (attach edge cardinality) rows.rows reached) (some name)).Typed
      type := by
  rintro _ rfl
  obtain ⟨rfl⟩ := ht
  refine ⟨rfl, fun row hm => ?_⟩
  simp only [← List.map_uncurry_zip_eq_zipWith, List.mem_map] at hm
  obtain ⟨⟨before, values⟩, hb, rfl⟩ := hm
  exact (h name rfl).2 before (List.of_mem_zip hb).1

/-! ### The steps of a run beside those of the compiler -/

lemma typed_wraps {draft base : Draft} {condition : Bool}
    (h : Draft.Wraps counts draft condition base last) : base.type = draft.type := by
  cases h <;> rfl

/-- An operation that needs no other objects keeps the rows typed as the compiler has it. -/
lemma typed_apply {draft result : Draft} {operation : Operation}
    (h : (Compile.operation graph.catalog draft operation).run counts = .ok (result, last))
    (ht : rows.Typed draft.type) : (rows.apply operation).Typed result.type := by
  cases Compile.operation_ok h with
  | project | rename => exact ht.mapItems _
  | filter hw =>
    exact (typed_wraps hw).symm ▸ ht.subset rfl fun row hm => (List.mem_filter.1 hm).1
  | take hw => exact (typed_wraps hw).symm ▸ ht.subset rfl fun row hm => List.mem_of_mem_take hm
  | skip hw => exact (typed_wraps hw).symm ▸ ht.subset rfl fun row hm => List.mem_of_mem_drop hm
  | orderBy hw => exact (typed_wraps hw).symm ▸ ht.subset rfl fun row hm => Stable.mem_sort.1 hm
  | count | nest | groupBy => exact typed_none
  | edge hw => exact (typed_wraps hw).symm ▸ ht
  | union =>
    change rows.Typed (if _ then draft.type else none)
    split
    · exact ht
    · exact typed_none

mutual

lemma step_safe (hv : graph.validates = false) :
    ∀ (operation : Operation) {draft result : Draft} {counts last : AliasCounts} {rows : Rows},
      (Compile.operation graph.catalog draft operation).run counts = .ok (result, last) →
      rows.Typed draft.type →
      Safe graph.resolver (graph.step rows operation) (·.Typed result.type)
  | .edge name inner, draft, result, counts, last, rows, h, ht => by
    cases Compile.operation_ok h with | @edge _ _ base _ _ found column _ _ _ _ hw hf hs hp =>
    obtain ⟨type, target, hbase, he, htarget, -⟩ := Compile.follow_ok hf
    obtain ⟨_, _, _, -, -, -, rfl⟩ := Compile.start_ok hs
    -- The compiler followed the edge from a type, so every row has an object to follow it from.
    have hdraft : draft.type = some type := (typed_wraps hw).symm.trans hbase
    obtain ⟨htype, horigin⟩ := ht type hdraft
    have hreach : ∀ row ∈ rows.rows, Safe graph.resolver (do
        return (← pipeline graph (← graph.reach type name found.1 row) inner).items)
        fun _ => True := fun row hm =>
      Run.Safe.bind (reach_safe hv htarget (horigin row hm)) fun _ hfirst =>
        Run.Safe.bind (pipeline_safe hv inner hp hfirst) fun _ _ => Run.Safe.pure trivial
    have hresult : (base.attach column).type = some type := hbase
    simp only [step, edgeOf_ok htype he, hresult]
    refine Run.Safe.bind (Run.Safe.lift ⟨_, rfl, rfl⟩) ?_
    rintro _ rfl
    exact Run.Safe.bind (Run.Safe.forEach hreach) fun values _ =>
      Run.Safe.pure (typed_attach rfl (hdraft ▸ ht) _ _ values)
  | .union queries, draft, result, counts, last, rows, h, ht => by
    cases Compile.operation_ok h with | union hb =>
    simp only [step]
    exact appendAll_safe hv queries hb ht
  | .project fields, _, _, _, _, _, h, ht => Run.Safe.pure (typed_apply h ht)
  | .filter predicate, _, _, _, _, _, h, ht => Run.Safe.pure (typed_apply h ht)
  | .take n, _, _, _, _, _, h, ht => Run.Safe.pure (typed_apply h ht)
  | .skip n, _, _, _, _, _, h, ht => Run.Safe.pure (typed_apply h ht)
  | .count, _, _, _, _, _, h, ht => Run.Safe.pure (typed_apply h ht)
  | .nest key, _, _, _, _, _, h, ht => Run.Safe.pure (typed_apply h ht)
  | .rename old new, _, _, _, _, _, h, ht => Run.Safe.pure (typed_apply h ht)
  | .orderBy key direction, _, _, _, _, _, h, ht => Run.Safe.pure (typed_apply h ht)
  | .groupBy key, _, _, _, _, _, h, ht => Run.Safe.pure (typed_apply h ht)

lemma pipeline_safe (hv : graph.validates = false) :
    ∀ (operations : List Operation) {draft result : Draft} {counts last : AliasCounts}
      {rows : Rows},
      (Compile.pipeline graph.catalog draft operations).run counts = .ok (result, last) →
      rows.Typed draft.type →
      Safe graph.resolver (graph.pipeline rows operations) (·.Typed result.type)
  | [], _, _, _, _, _, h, ht => by
    obtain ⟨rfl, -⟩ := Compile.run_pure_eq_ok.1 h
    exact Run.Safe.pure ht
  | operation :: rest, _, _, _, _, _, h, ht => by
    obtain ⟨next, between, hstep, hrest⟩ := Compile.pipeline_cons_ok h
    exact Run.Safe.bind (step_safe hv operation hstep ht) fun _ ht' =>
      pipeline_safe hv rest hrest ht'

lemma appendAll_safe (hv : graph.validates = false) :
    ∀ (queries : List Query) {expected : List String} {drafts : List Draft}
      {counts last : AliasCounts} {rows : Rows} {type : Option String},
      (branches graph.catalog expected queries).run counts = .ok (drafts, last) →
      rows.Typed type →
      Safe graph.resolver (graph.appendAll rows queries)
        (·.Typed (if drafts.all (·.type == type) then type else none))
  | [], _, drafts, _, _, rows, type, h, ht => by
    obtain ⟨rfl, -⟩ := Compile.run_pure_eq_ok.1 h
    exact Run.Safe.pure ht
  | ⟨source, operations⟩ :: rest, _, _, _, _, rows, type, h, ht => by
    obtain ⟨first, started, branch, between, others, hs, hp, -, ho, rfl⟩ :=
      Compile.branches_cons_ok h
    obtain ⟨found, _, _, hfound, -, -, rfl⟩ := Compile.start_ok hs
    simp only [appendAll]
    refine Run.Safe.bind (resolveSource_safe hv hfound) fun objects hobjects => ?_
    refine Run.Safe.bind (pipeline_safe hv operations hp hobjects) fun result hresult => ?_
    have hrest := appendAll_safe hv rest ho (ht.append hresult)
    refine hrest.mono fun appended happended => ?_
    rename_i branch _ _
    -- A branch of another type leaves rows of no known type, whatever the others are.
    by_cases hb : branch.type = type
    · simpa [hb] using happended
    · simpa [hb] using typed_none

end

lemma rows_safe (hv : graph.validates = false) {query : Query} {result : Draft}
    (h : (Compile.draft graph.catalog query).run counts = .ok (result, last)) :
    Safe graph.resolver (graph.rows query) (·.Typed result.type) := by
  obtain ⟨first, started, hs, hp⟩ := Compile.draft_ok h
  obtain ⟨type, _, _, ht, -, -, rfl⟩ := Compile.start_ok hs
  exact Run.Safe.bind (resolveSource_safe hv ht) fun objects hobjects =>
    pipeline_safe hv query.operations hp hobjects

/-- Without validation, only the resolver can stop the run of a query that has a select, and a
resolver whose calls never fail does not: types and edges are found, and no edge is followed
from aggregated rows. -/
theorem execute_of_select (graph : Graph) (query : Query) (select : Sql.Select)
    (h : Compile.select graph.catalog query = .ok select) (hv : graph.validates = false) :
    (graph.resolver.NeverFails → ∃ response, graph.execute query = .ok response) ∧
      ∀ e, graph.execute query = .error e → graph.resolver.Causes e := by
  obtain ⟨result, last, hd, -⟩ := Compile.select_ok h
  have hsafe := rows_safe hv hd []
  have hexecute : graph.execute query
      = ((graph.rows query).run.run []).1.map fun rows => ⟨rows.items⟩ := rfl
  rw [hexecute]
  split at hsafe
  · rename_i rows hrows
    rw [hrows]
    exact ⟨fun _ => ⟨_, rfl⟩, by rintro e ⟨⟩⟩
  · rename_i e he
    rw [he]
    refine ⟨fun hnever => absurd hsafe (hnever e), ?_⟩
    rintro _ ⟨⟩
    exact hsafe

/-- Two users who are friends of each other and of a third one that is not there. -/
def twoFriends : Graph where
  catalog := SocialGraph.catalog
  resolver := .stable
    (fun _ id => .ok (if id < 2 then some (SocialGraph.userItem id.toInt) else none))
    (fun _ _ _ => .ok [0, 1, 2]) (some fun _ => .ok [0, 1])

/-- Users with their friends and the reviews of the friends; edges are followed below edges, in
a branch of a union and after it. -/
def friendsAndReviews : Query :=
  ⟨{ objectType := "User" },
    [.orderBy "age" .descending,
     .edge "friends" [.edge "reviews" [.edge "author" [.project ["name"]]], .take 2],
     .union [⟨{ objectType := "User", ids := some [1] }, [.edge "friends" [.count]]⟩],
     .edge "reviews" [.nest "all"],
     .groupBy "age"]⟩

theorem execute_friendsAndReviews :
    (∃ select, Compile.select twoFriends.catalog friendsAndReviews = .ok select) ∧
      ∃ response, twoFriends.execute friendsAndReviews = .ok response := by
  have hok : (Compile.select twoFriends.catalog friendsAndReviews).isOk = true := by
    decide +kernel
  obtain ⟨select, h⟩ := Compile.exists_of_isOk hok
  exact ⟨⟨select, h⟩, (execute_of_select twoFriends friendsAndReviews select h rfl).1
    (Resolver.neverFails_stable (fun _ id =>
      if id < 2 then some (SocialGraph.userItem id.toInt) else none)
      (fun _ _ _ => [0, 1, 2]) fun _ => [0, 1])⟩

end Graph
end ObjectGraph
