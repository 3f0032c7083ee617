/-
# Edges of reshaped objects

Projections and renamings make other items of rows.  They keep how many rows there are, their type
and the object behind each of them, and an edge is followed from nothing else.  So it reaches the
same objects with and without them, whatever the operations inside the edge do with these.  The
value of the edge is stored last, so that it is there even if a field was given the name of the
edge before.
-/
import ObjectGraph.Proofs.Memory.Independence
import ObjectGraph.Proofs.Named

namespace ObjectGraph

/-- Whether an operation does nothing but make other items of rows. -/
def Operation.Reshapes : Operation → Prop
  | .project _ | .rename _ _ => True
  | .filter _ | .take _ | .skip _ | .count | .nest _ | .orderBy _ _ | .groupBy _ | .edge _ _
  | .union _ => False

/-- Two items that have the same value stored under a key. -/
def Item.SameValue (key : String) (item other : Item) : Prop :=
  ∃ value : Json, item.members.get? key = some value ∧ other.members.get? key = some value

/-! ### Rows with the same objects behind them -/

namespace Rows

variable {rows other last : Rows}

/-- As many rows of the same type, with the same object behind each of them. -/
structure SameOrigins (rows other : Rows) : Prop where
  type : rows.type = other.type
  origins : rows.rows.map (·.origin) = other.rows.map (·.origin)

lemma SameOrigins.refl (rows : Rows) : rows.SameOrigins rows := ⟨rfl, rfl⟩

lemma SameOrigins.symm (h : rows.SameOrigins other) : other.SameOrigins rows :=
  ⟨h.type.symm, h.origins.symm⟩

lemma SameOrigins.trans (h : rows.SameOrigins other) (ho : other.SameOrigins last) :
    rows.SameOrigins last :=
  ⟨h.type.trans ho.type, h.origins.trans ho.origins⟩

lemma SameOrigins.length_eq (h : rows.SameOrigins other) :
    rows.rows.length = other.rows.length := by
  have hlength := congrArg List.length h.origins
  rwa [List.length_map, List.length_map] at hlength

lemma sameOrigins_mapItems (f : Item → Item) (rows : Rows) :
    (rows.mapItems f).SameOrigins rows where
  type := rfl
  origins := by
    show (rows.rows.map (Row.mapItem f)).map (·.origin) = _
    rw [List.map_map]
    rfl

lemma sameOrigins_apply {operation : Operation} (h : operation.Reshapes) (rows : Rows) :
    (rows.apply operation).SameOrigins rows := by
  cases operation with
  | project fields => exact sameOrigins_mapItems (·.project fields) rows
  | rename old new => exact sameOrigins_mapItems (·.rename old new) rows
  | filter | take | skip | count | nest | orderBy | groupBy | edge | union => exact h.elim

lemma sameOrigins_applyAll {reshaping : List Operation}
    (h : ∀ operation ∈ reshaping, operation.Reshapes) (rows : Rows) :
    (reshaping.foldl Rows.apply rows).SameOrigins rows := by
  induction reshaping generalizing rows with
  | nil => exact SameOrigins.refl rows
  | cons operation rest ih =>
    obtain ⟨hoperation, hrest⟩ := List.forall_mem_cons.1 h
    exact (ih hrest (rows.apply operation)).trans (sameOrigins_apply hoperation rows)

/-- As many rows, each of them with the same value stored under a key as its counterpart. -/
def SameValues (key : String) (rows other : Rows) : Prop :=
  List.Forall₂ (Item.SameValue key) rows.items other.items

end Rows

namespace Graph

variable {graph : Graph} {rows other : Rows} {type name : String} {edge : Edge}
  {inner : List Operation}

/-! ### Attached values -/

/-- The value of an edge takes the place of whatever was stored under its name. -/
lemma get?_attach (name : String) (cardinality : Cardinality) (row : Row) (reached : List Item) :
    (attach name cardinality row reached).item.members.get? name
      = some (edgeValue cardinality reached) := by
  show (Named.put name _ row.item.members.entries).lookup name = _
  rw [Named.lookup_put, if_pos rfl]

/-- What is attached does not depend on the rows, but for their number. -/
lemma sameValues_attach (name : String) (cardinality : Cardinality) {rows other : List Row}
    (h : rows.length = other.length) (reached : List (List Item)) :
    List.Forall₂ (Item.SameValue name)
      ((List.zipWith (attach name cardinality) rows reached).map (·.item))
      ((List.zipWith (attach name cardinality) other reached).map (·.item)) := by
  induction rows generalizing other reached with
  | nil =>
    obtain rfl := List.length_eq_zero_iff.1 h.symm
    exact .nil
  | cons row rest ih =>
    obtain ⟨counterpart, others, rfl⟩ := List.exists_cons_of_length_eq_add_one h.symm
    cases reached with
    | nil => exact .nil
    | cons items behind =>
      have hvalue : Item.SameValue name (attach name cardinality row items).item
          (attach name cardinality counterpart items).item :=
        ⟨edgeValue cardinality items, get?_attach .., get?_attach ..⟩
      exact .cons hvalue (ih (Nat.succ.inj h) behind)

/-! ### Edges -/

lemma edgeOf_congr (h : rows.SameOrigins other) (name : String) :
    graph.edgeOf rows name = graph.edgeOf other name := by
  unfold edgeOf
  rw [h.type]

/-- An edge is followed from the objects behind rows, one after the other. -/
lemma forEach_follow_congr (h : rows.SameOrigins other) (type name : String) (edge : Edge)
    (inner : List Operation) :
    Run.forEach (graph.follow type name edge inner) rows.rows
      = Run.forEach (graph.follow type name edge inner) other.rows := by
  have horigins (l : List Row) : Run.forEach (graph.follow type name edge inner) l
      = Run.forEach (fun origin => graph.follow type name edge inner ⟨.empty, origin⟩)
          (l.map (·.origin)) := by
    have hrow : graph.follow type name edge inner
        = fun row => graph.follow type name edge inner ⟨.empty, row.origin⟩ := by
      funext row
      exact follow_congr rfl inner
    rw [Run.forEach_map, ← hrow]
  rw [horigins, horigins, h.origins]

/-- From the same objects an edge attaches the same values. -/
lemma step_edge_simulated (h : rows.SameOrigins other) (name : String) (inner : List Operation) :
    Run.Simulated (Rows.SameValues name) (graph.step rows (.edge name inner))
      (graph.step other (.edge name inner)) := by
  rw [step_edge, step_edge, edgeOf_congr h]
  refine (Run.Simulated.refl _).bind ?_
  rintro ⟨type, edge⟩ _ rfl
  show Run.Simulated _ (Run.forEach (graph.follow type name edge inner) rows.rows >>= _) _
  rw [forEach_follow_congr h]
  refine (Run.Simulated.refl _).bind ?_
  rintro reached _ rfl
  exact Run.Simulated.pure (sameValues_attach name edge.cardinality h.length_eq reached)

/-! ### Whole queries -/

/-- Operations that reshape items ask for nothing and cannot fail. -/
lemma pipeline_reshaping {reshaping : List Operation}
    (h : ∀ operation ∈ reshaping, operation.Reshapes) (rows : Rows) (rest : List Operation) :
    graph.pipeline rows (reshaping ++ rest)
      = graph.pipeline (reshaping.foldl Rows.apply rows) rest := by
  induction reshaping generalizing rows with
  | nil => rfl
  | cons operation others ih =>
    obtain ⟨hoperation, hothers⟩ := List.forall_mem_cons.1 h
    have hstep : graph.step rows operation = pure (rows.apply operation) := by
      cases operation with
      | project | rename => rfl
      | filter | take | skip | count | nest | orderBy | groupBy | edge | union =>
        exact hoperation.elim
    rw [List.cons_append, pipeline, hstep, pure_bind, ih hothers]
    rfl

/-- Whatever is done to the items before, an edge attaches the same values to the same number of
rows. -/
lemma rows_edge_simulated (graph : Graph) {reshaping others : List Operation}
    (hr : ∀ operation ∈ reshaping, operation.Reshapes)
    (ho : ∀ operation ∈ others, operation.Reshapes) (source : Source) (name : String)
    (inner : List Operation) :
    Run.Simulated (Rows.SameValues name)
      (graph.rows ⟨source, reshaping ++ [.edge name inner]⟩)
      (graph.rows ⟨source, others ++ [.edge name inner]⟩) := by
  refine (Run.Simulated.refl (graph.resolveSource source)).bind ?_
  rintro first _ rfl
  rw [pipeline_reshaping hr, pipeline_reshaping ho]
  have horigins : (reshaping.foldl Rows.apply first).SameOrigins (others.foldl Rows.apply first) :=
    (Rows.sameOrigins_applyAll hr first).trans (Rows.sameOrigins_applyAll ho first).symm
  exact (step_edge_simulated horigins name inner).bind fun _ _ hvalues =>
    Run.Simulated.pure hvalues

/-- Projections and renamings in front of an edge have no part in what it attaches.  The query
gives a result exactly if it does without them; then there are as many objects, and the value that
is stored under the name of the edge is the same in each of them. -/
theorem execute_reshaped_edge (graph : Graph) (source : Source) (reshaping : List Operation)
    (hr : ∀ operation ∈ reshaping, operation.Reshapes) (name : String) (inner : List Operation) :
    ((∃ response, graph.execute ⟨source, reshaping ++ [.edge name inner]⟩ = .ok response) ↔
        ∃ response, graph.execute ⟨source, [.edge name inner]⟩ = .ok response) ∧
      ∀ reshaped plain : Response,
        graph.execute ⟨source, reshaping ++ [.edge name inner]⟩ = .ok reshaped →
        graph.execute ⟨source, [.edge name inner]⟩ = .ok plain →
        List.Forall₂ (Item.SameValue name) reshaped.items plain.items := by
  have hnone : ∀ operation ∈ ([] : List Operation), operation.Reshapes := by simp
  have hforth := rows_edge_simulated graph hr hnone source name inner
  have hback := rows_edge_simulated graph hnone hr source name inner
  refine ⟨⟨?_, ?_⟩, ?_⟩
  · rintro ⟨response, hresponse⟩
    obtain ⟨found, others, -, -, hothers⟩ := exists_execute hforth hresponse
    exact ⟨_, hothers⟩
  · rintro ⟨response, hresponse⟩
    obtain ⟨found, others, -, -, hothers⟩ := exists_execute hback hresponse
    exact ⟨_, hothers⟩
  · intro reshaped plain hreshaped hplain
    obtain ⟨found, others, hvalues, rfl, hothers⟩ := exists_execute hforth hreshaped
    obtain rfl := Except.ok.inj (hothers.symm.trans hplain)
    exact hvalues

/-- Names only, and those under the name of an edge. -/
def namesAsFriends : List Operation := [.project ["name"], .rename "name" "friends"]

/-- Users get the same friends with and without names in their place. -/
theorem execute_reshaped_edge_friends :
    (∀ operation ∈ namesAsFriends, operation.Reshapes) ∧ ∃ reshaped plain : Response,
      twoFriends.execute ⟨{ objectType := "User", ids := some [1, 5, 0] },
        namesAsFriends ++ [.edge "friends" [.take 1]]⟩ = .ok reshaped ∧
      twoFriends.execute ⟨{ objectType := "User", ids := some [1, 5, 0] },
        [.edge "friends" [.take 1]]⟩ = .ok plain ∧
      reshaped.items.map Item.keys = [["friends"], ["friends"]] ∧
      plain.items.map Item.keys
        = [[":id", "name", "age", "friends"], [":id", "name", "age", "friends"]] ∧
      List.Forall₂ (Item.SameValue "friends") reshaped.items plain.items := by
  have hr : ∀ operation ∈ namesAsFriends, operation.Reshapes := by
    simp [namesAsFriends, Operation.Reshapes]
  obtain ⟨-, hvalues⟩ := execute_reshaped_edge twoFriends
    { objectType := "User", ids := some [1, 5, 0] } namesAsFriends hr "friends" [.take 1]
  exact ⟨hr, _, _, rfl, rfl, rfl, rfl, hvalues _ _ rfl rfl⟩

end Graph
end ObjectGraph
