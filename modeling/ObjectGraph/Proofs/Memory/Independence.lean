/-
# Rows do not depend on each other

A resolver whose answers never change gives every object the same whatever was asked before.  Then
what a projection, a condition, a renaming or an edge makes of a row depends on this row alone, and
a pipeline of them can be run on any part of the rows.

Two notions carry this.  A run *gives* a result when it ends in it after any calls, so that runs
are reduced to computations without a history.  A computation on lists *splits* when it succeeds on
joined lists exactly if it does on both, with the results one behind the other.
-/
import ObjectGraph.Proofs.Memory.Contract
import ObjectGraph.Proofs.Memory.Runs

namespace ObjectGraph

open Run (Gives Steady)

/-! ### Computations on parts of a list -/

/-- A computation on lists succeeds on joined lists exactly if it does on both of them, and then
gives the results one behind the other. -/
def Splits {α β : Type} (f : List α → Except RunError (List β)) : Prop :=
  ∀ l r found, f (l ++ r) = .ok found ↔
    ∃ first second, f l = .ok first ∧ f r = .ok second ∧ found = first ++ second

section Splits

variable {α β γ : Type}

lemma splits_error (e : RunError) : Splits fun _ : List α => (.error e : Except _ (List β)) := by
  intro l r found
  simp

lemma splits_of_append {f : List α → List β} (h : ∀ l r, f (l ++ r) = f l ++ f r) :
    Splits fun l => .ok (f l) := by
  intro l r found
  simp [h, eq_comm]

/-- It is enough that the results are put together when both are there. -/
lemma splits_of_eq {f : List α → Except RunError (List β)}
    (h : ∀ l r, f (l ++ r) = do return (← f l) ++ (← f r)) : Splits f := by
  intro l r found
  rw [h]
  simp only [Compile.bind_eq_ok, Compile.pure_eq_ok]
  constructor
  · rintro ⟨first, hfirst, second, hsecond, rfl⟩
    exact ⟨first, second, hfirst, hsecond, rfl⟩
  · rintro ⟨first, second, hfirst, hsecond, rfl⟩
    exact ⟨first, hfirst, second, hsecond, rfl⟩

lemma splits_mapM (f : α → Except RunError β) : Splits fun l => l.mapM f :=
  splits_of_eq fun _ _ => List.mapM_append

lemma Splits.bind {f : List α → Except RunError (List β)} {g : List β → Except RunError (List γ)}
    (hf : Splits f) (hg : Splits g) : Splits fun l => f l >>= g := by
  intro l r found
  simp only [Compile.bind_eq_ok]
  constructor
  · rintro ⟨middle, hmiddle, hfound⟩
    obtain ⟨first, second, hfirst, hsecond, rfl⟩ := (hf l r middle).1 hmiddle
    obtain ⟨front, back, hfront, hback, rfl⟩ := (hg first second found).1 hfound
    exact ⟨front, back, ⟨first, hfirst, hfront⟩, ⟨second, hsecond, hback⟩, rfl⟩
  · rintro ⟨front, back, ⟨first, hfirst, hfront⟩, ⟨second, hsecond, hback⟩, rfl⟩
    exact ⟨first ++ second, (hf l r _).2 ⟨first, second, hfirst, hsecond, rfl⟩,
      (hg first second _).2 ⟨front, back, hfront, hback, rfl⟩⟩

/-- What is computed for every element may be joined to the element right away. -/
lemma map_zipWith_mapM (h : α → β → γ) (f : α → Except RunError β) (l : List α) :
    (l.mapM f).map (List.zipWith h l) = l.mapM fun a => (f a).map (h a) := by
  induction l with
  | nil => rfl
  | cons a rest ih =>
    rw [List.mapM_cons, List.mapM_cons, ← ih]
    cases f a with
    | error e => rfl
    | ok b => cases rest.mapM f <;> rfl

/-- Rows of a type are found part by part, whatever was asked for before. -/
def PartByPart (type : String) (x : List α → Run Rows) : Prop :=
  ∃ f, Splits f ∧ ∀ l, Gives (x l) ((f l).map (Rows.mk · (some type)))

lemma PartByPart.bind {type : String} {x : List α → Run Rows} {next : Rows → Run Rows}
    (hx : PartByPart type x) (hn : PartByPart type fun rows => next ⟨rows, some type⟩) :
    PartByPart type fun l => x l >>= next := by
  obtain ⟨f, hf, hgives⟩ := hx
  obtain ⟨g, hg, hnext⟩ := hn
  exact ⟨_, hf.bind hg, fun l => (hgives l).bind_map hnext⟩

end Splits

/-! ### Runs on a graph that does not change -/

/-- Whether an operation treats every row on its own. -/
def Operation.Rowwise : Operation → Prop
  | .project _ | .filter _ | .rename _ _ | .edge _ _ => True
  | .take _ | .skip _ | .count | .nest _ | .orderBy _ _ | .groupBy _ | .union _ => False

namespace Graph

variable {graph : Graph} {type name : String} {edge : Edge}

lemma splits_checkObjects (graph : Graph) (name : String) (type : ObjectType) :
    Splits (graph.checkObjects name type) := by
  refine splits_of_eq fun l r => ?_
  induction l with
  | nil => cases h : graph.checkObjects name type r <;> simp [checkObjects, h] <;> rfl
  | cons entry rest ih =>
    rcases entry with ⟨id, _ | item⟩
    · exact ih
    · simp only [List.cons_append, checkObjects, ih, bind_assoc, pure_bind]
      split
      · split
        · rfl
        · simp only [bind_assoc, pure_bind, List.cons_append]
      · simp only [bind_assoc, pure_bind, List.cons_append]

/-- The objects with some identities can be found part by part. -/
lemma exists_resolveObjects (hs : graph.resolver.IsStable) (name : String) :
    ∃ f, Splits f ∧ ∀ ids, Gives (graph.resolveObjects name ids) (f ids) := by
  unfold resolveObjects
  cases graph.catalog.type? name with
  | none => exact ⟨_, splits_error (.typeNotFound name), fun ids => Gives.fail _⟩
  | some type =>
    obtain ⟨object, edge, all, hresolver⟩ := hs
    let answer (id : Int64) := (object name id).mapError RunError.unresolved
    have hask (id : Int64) : Gives (Run.askObject graph.resolver name id) (answer id) :=
      Gives.ask fun history => by rw [hresolver]; rfl
    have hchecked := graph.splits_checkObjects name type
    refine ⟨_, (splits_mapM fun id => (answer id).map (id, ·)).bind hchecked, fun ids => ?_⟩
    have hzip : (ids.mapM fun id => (answer id).map (id, ·)) >>= graph.checkObjects name type
        = ids.mapM answer >>= fun found => graph.checkObjects name type (ids.zip found) := by
      rw [← map_zipWith_mapM]
      cases ids.mapM answer <;> rfl
    show Gives _ ((ids.mapM fun id => (answer id).map (id, ·)) >>= graph.checkObjects name type)
    rw [hzip]
    exact (Gives.forEach hask ids).bind fun found _ => Gives.lift _

lemma resolveSource_partByPart (hs : graph.resolver.IsStable) (type : String) :
    PartByPart type fun ids => graph.resolveSource { objectType := type, ids := some ids } := by
  obtain ⟨f, hf, hgives⟩ := exists_resolveObjects hs type
  exact ⟨f, hf, fun ids => (hgives ids).map⟩

/-! ### Runs that no call changes -/

lemma resolveObjects_steady (hs : graph.resolver.IsStable) (name : String) (ids : List Int64) :
    Steady (graph.resolveObjects name ids) := by
  obtain ⟨f, -, hgives⟩ := exists_resolveObjects hs name
  exact ⟨f ids, hgives ids⟩

lemma resolveSource_steady (hs : graph.resolver.IsStable) (source : Source) :
    Steady (graph.resolveSource source) := by
  have hobjects (ids : List Int64) : Steady (do
      return ⟨← graph.resolveObjects source.objectType ids, some source.objectType⟩ : Run Rows) :=
    (resolveObjects_steady hs source.objectType ids).bind fun objects => Steady.pure _
  unfold resolveSource
  cases source.ids with
  | some ids => exact (Steady.pure ids).bind hobjects
  | none =>
    refine Steady.bind ?_ hobjects
    obtain ⟨object, edge, all, hresolver⟩ := hs
    rw [Run.askAll, hresolver]
    cases all with
    | none => exact ⟨_, Gives.fail _⟩
    | some all => exact ⟨_, Gives.ask fun history => rfl⟩

lemma follow_steady (hs : graph.resolver.IsStable) {inner : List Operation}
    (hinner : ∀ first, Steady (graph.pipeline first inner)) (type name : String) (edge : Edge)
    (row : Row) : Steady (graph.follow type name edge inner row) := by
  have hreach : Steady (graph.reach type name edge row) := by
    have hobjects := resolveObjects_steady hs edge.target
    unfold reach
    cases row.origin with
    | none => exact ⟨_, Gives.fail _⟩
    | some origin =>
      obtain ⟨object, answer, all, hresolver⟩ := hs
      have hask : Steady (Run.askEdge graph.resolver type origin name) := by
        rw [Run.askEdge, hresolver]
        exact ⟨_, Gives.ask fun history => rfl⟩
      exact hask.bind fun ids => (hobjects ids).bind fun objects => Steady.pure _
  exact hreach.bind fun first => (hinner first).bind fun found => Steady.pure _

mutual

lemma step_steady (hs : graph.resolver.IsStable) : ∀ (operation : Operation) (rows : Rows),
    Steady (graph.step rows operation)
  | .edge name inner, rows => by
    rw [step_edge]
    refine Steady.bind ⟨_, Gives.lift _⟩ fun found => ?_
    have hfollow := follow_steady hs (pipeline_steady hs inner) found.1 name found.2
    exact (Steady.forEach hfollow rows.rows).bind fun reached => Steady.pure _
  | .union queries, rows => by
    rw [step]
    exact appendAll_steady hs queries rows
  | .project fields, rows | .filter predicate, rows | .take n, rows | .skip n, rows
  | .count, rows | .nest key, rows | .rename old new, rows | .orderBy key direction, rows
  | .groupBy key, rows => ⟨_, Gives.pure _⟩

lemma pipeline_steady (hs : graph.resolver.IsStable) : ∀ (operations : List Operation)
    (rows : Rows), Steady (graph.pipeline rows operations)
  | [], rows => Steady.pure rows
  | operation :: rest, rows => (step_steady hs operation rows).bind fun after =>
    pipeline_steady hs rest after

lemma appendAll_steady (hs : graph.resolver.IsStable) : ∀ (queries : List Query) (rows : Rows),
    Steady (graph.appendAll rows queries)
  | [], rows => Steady.pure rows
  | ⟨source, operations⟩ :: rest, rows => by
    rw [appendAll]
    refine (resolveSource_steady hs source).bind fun objects => ?_
    refine (pipeline_steady hs operations objects).bind fun branch => ?_
    exact appendAll_steady hs rest (rows.append branch)

end

/-! ### Operations on every row on its own -/

/-- An edge is followed from the object behind a row, whatever became of the row. -/
lemma follow_congr {row other : Row} (h : row.origin = other.origin) (inner : List Operation) :
    graph.follow type name edge inner row = graph.follow type name edge inner other := by
  unfold follow reach
  rw [h]

/-- A row together with the value of an edge. -/
def withEdge (name : String) (value : Option Item → Except RunError Json) (row : Row) :
    Except RunError Row :=
  (value row.origin).map fun found => row.mapItem (·.insert name found)

/-- The value of an edge is computed from the object behind the row and nothing else. -/
lemma exists_edgeValue (hs : graph.resolver.IsStable)
    (he : graph.catalog.edge? type name = some edge) (inner : List Operation) :
    ∃ value, ∀ rows : List Row, Gives (graph.step ⟨rows, some type⟩ (.edge name inner))
        ((rows.mapM (withEdge name value)).map (Rows.mk · (some type))) := by
  have hfollow := follow_steady hs (pipeline_steady hs inner) type name edge
  choose reached hreached using hfollow
  refine ⟨fun origin => (reached ⟨.empty, origin⟩).map (edgeValue edge.cardinality), fun rows => ?_⟩
  have hrow (row : Row) :
      Gives (graph.follow type name edge inner row) (reached ⟨.empty, row.origin⟩) := by
    have hsame : graph.follow type name edge inner row
        = graph.follow type name edge inner ⟨.empty, row.origin⟩ := follow_congr rfl inner
    rw [hsame]
    exact hreached _
  have hattach : (rows.mapM fun row => reached ⟨.empty, row.origin⟩).map
      (List.zipWith (attach name edge.cardinality) rows)
      = rows.mapM (withEdge name fun origin =>
          (reached ⟨.empty, origin⟩).map (edgeValue edge.cardinality)) := by
    rw [map_zipWith_mapM]
    congr
    funext row
    simp only [withEdge]
    cases reached ⟨.empty, row.origin⟩ <;> rfl
  have hedge : graph.edgeOf ⟨rows, some type⟩ name = .ok (type, edge) := by
    simp only [edgeOf, he]
  have hmaps : ((rows.mapM fun row => reached ⟨.empty, row.origin⟩).map
      (List.zipWith (attach name edge.cardinality) rows)).map (Rows.mk · (some type))
      = (rows.mapM fun row => reached ⟨.empty, row.origin⟩).map fun found =>
          Rows.mk (List.zipWith (attach name edge.cardinality) rows found) (some type) := by
    cases rows.mapM fun row => reached ⟨.empty, row.origin⟩ <;> rfl
  rw [step_edge, hedge, ← hattach, hmaps]
  exact (Gives.forEach hrow rows).map

lemma step_partByPart (hs : graph.resolver.IsStable) {operation : Operation}
    (ho : operation.Rowwise) (type : String) :
    PartByPart type fun rows => graph.step ⟨rows, some type⟩ operation := by
  cases operation with
  | project fields | rename old new =>
    exact ⟨_, splits_of_append fun l r => List.map_append, fun rows => Gives.pure _⟩
  | filter predicate =>
    exact ⟨_, splits_of_append fun l r => List.filter_append _ _, fun rows => Gives.pure _⟩
  | edge name inner =>
    cases he : graph.catalog.edge? type name with
    | none =>
      -- an edge that is not declared fails without rows too
      refine ⟨_, splits_error (.edgeNotFound type name), fun rows => ?_⟩
      have hedge : graph.edgeOf ⟨rows, some type⟩ name = .error (.edgeNotFound type name) := by
        simp only [edgeOf, he]
      show Gives (graph.step ⟨rows, some type⟩ (.edge name inner)) _
      rw [step_edge, hedge]
      exact Gives.fail _
    | some edge =>
      obtain ⟨value, hvalue⟩ := exists_edgeValue hs he inner
      exact ⟨_, splits_mapM _, hvalue⟩
  | take | skip | count | nest | orderBy | groupBy | union => exact ho.elim

lemma pipeline_partByPart (hs : graph.resolver.IsStable) {operations : List Operation}
    (ho : ∀ operation ∈ operations, operation.Rowwise) (type : String) :
    PartByPart type fun rows => graph.pipeline ⟨rows, some type⟩ operations := by
  induction operations with
  | nil => exact ⟨_, splits_of_append fun l r => rfl, fun rows => Gives.pure _⟩
  | cons operation rest ih =>
    obtain ⟨hoperation, hrest⟩ := List.forall_mem_cons.1 ho
    exact (step_partByPart hs hoperation type).bind (ih hrest)

lemma rows_partByPart (hs : graph.resolver.IsStable) {operations : List Operation}
    (ho : ∀ operation ∈ operations, operation.Rowwise) (type : String) :
    PartByPart type fun ids =>
      graph.rows ⟨{ objectType := type, ids := some ids }, operations⟩ := by
  show PartByPart type fun ids => graph.resolveSource { objectType := type, ids := some ids }
    >>= fun rows => graph.pipeline rows operations
  exact (resolveSource_partByPart hs type).bind (pipeline_partByPart hs ho type)

/-- On a graph that does not change, rows do not depend on each other.  A query that treats every
row on its own gives a result for joined identities exactly if it does for both parts, and then
the results one behind the other; and the value of an edge is computed from nothing but the object
behind the row, whatever other rows there are and whatever was asked for before. -/
theorem execute_append (graph : Graph) (type : String) (hs : graph.resolver.IsStable) :
    (∀ operations : List Operation, (∀ operation ∈ operations, operation.Rowwise) →
      ∀ (a b : List Int64) (response : Response),
        graph.execute ⟨{ objectType := type, ids := some (a ++ b) }, operations⟩ = .ok response ↔
          ∃ first second,
            graph.execute ⟨{ objectType := type, ids := some a }, operations⟩ = .ok first ∧
            graph.execute ⟨{ objectType := type, ids := some b }, operations⟩ = .ok second ∧
            response = ⟨first.items ++ second.items⟩) ∧
      ∀ name edge, graph.catalog.edge? type name = some edge → ∀ inner : List Operation,
        ∃ value : Option Item → Except RunError Json,
          ∀ (rows : List Row) (history : History),
            ((graph.step ⟨rows, some type⟩ (.edge name inner)).run.run history).1
              = (rows.mapM (withEdge name value)).map (Rows.mk · (some type)) := by
  refine ⟨fun operations ho a b response => ?_,
    fun name edge he inner => exists_edgeValue hs he inner⟩
  obtain ⟨f, hf, hrows⟩ := rows_partByPart hs ho type
  have hexecute (ids : List Int64) (given : Response) :
      graph.execute ⟨{ objectType := type, ids := some ids }, operations⟩ = .ok given ↔
        ∃ found, f ids = .ok found ∧ ⟨found.map (·.item)⟩ = given := by
    have hrun : graph.execute ⟨{ objectType := type, ids := some ids }, operations⟩
        = ((graph.rows ⟨{ objectType := type, ids := some ids }, operations⟩).run.run []).1.map
          fun rows => ⟨rows.items⟩ := rfl
    rw [hrun, hrows ids [], ← Compile.map_eq_ok]
    cases f ids <;> rfl
  rw [hexecute]
  constructor
  · rintro ⟨found, hfound, rfl⟩
    obtain ⟨first, second, hfirst, hsecond, rfl⟩ := (hf a b found).1 hfound
    exact ⟨_, _, (hexecute a _).2 ⟨first, hfirst, rfl⟩, (hexecute b _).2 ⟨second, hsecond, rfl⟩,
      congrArg Response.mk List.map_append⟩
  · rintro ⟨front, back, hfront, hback, rfl⟩
    obtain ⟨first, hfirst, rfl⟩ := (hexecute a front).1 hfront
    obtain ⟨second, hsecond, rfl⟩ := (hexecute b back).1 hback
    exact ⟨first ++ second, (hf a b _).2 ⟨first, second, hfirst, hsecond, rfl⟩,
      congrArg Response.mk List.map_append⟩

/-- The ages of users as years, and the names of their friends. -/
def friendNames : List Operation :=
  [.rename "age" "years", .edge "friends" [.orderBy "name" .descending, .project ["name"]]]

/-- A user has the same friends whether other users, or identities of none, are asked for too. -/
theorem execute_append_friendNames :
    twoFriends.resolver.IsStable ∧ (∀ operation ∈ friendNames, operation.Rowwise) ∧
      (∃ first second response : Response,
        twoFriends.execute ⟨{ objectType := "User", ids := some [0] }, friendNames⟩ = .ok first ∧
        twoFriends.execute ⟨{ objectType := "User", ids := some [5, 1] }, friendNames⟩
          = .ok second ∧
        twoFriends.execute ⟨{ objectType := "User", ids := some [0, 5, 1] }, friendNames⟩
          = .ok response ∧
        first.size = 1 ∧ second.size = 1 ∧ response.items = first.items ++ second.items) ∧
      ∃ value : Option Item → Except RunError Json, ∀ (rows : List Row) (history : History),
        ((twoFriends.step ⟨rows, some "User"⟩ (.edge "friends" [.take 1])).run.run history).1
          = (rows.mapM (withEdge "friends" value)).map (Rows.mk · (some "User")) := by
  have hs : twoFriends.resolver.IsStable := ⟨_, _, _, rfl⟩
  have ho : ∀ operation ∈ friendNames, operation.Rowwise := by simp [friendNames, Operation.Rowwise]
  obtain ⟨hexecute, hedge⟩ := execute_append twoFriends "User" hs
  obtain ⟨edge, he⟩ : ∃ edge, twoFriends.catalog.edge? "User" "friends" = some edge := ⟨_, rfl⟩
  have hjoined := (hexecute friendNames ho [0] [5, 1] _).2 ⟨_, _, rfl, rfl, rfl⟩
  exact ⟨hs, ho, ⟨_, _, _, rfl, rfl, hjoined, rfl, rfl, rfl⟩, hedge "friends" edge he [.take 1]⟩

end Graph
end ObjectGraph
