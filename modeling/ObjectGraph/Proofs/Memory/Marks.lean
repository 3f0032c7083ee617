/-
# Runs in memory and the spelling of the identity

An item finds the same under `id` and `:id` unless it has both as keys of its own.  Items that are
made of members have no key `id`, nor do those that are chosen from or renamed in them, because the
keys are normalized.  What else is made in a run gets the key `id` from a list of all rows or from
an edge that is called so.  The list is then the only member, and nothing is attached to it, since
it is no object; so only an edge can make the spellings differ.
-/
import ObjectGraph.Proofs.Memory.Contract
import ObjectGraph.Proofs.Memory.Kinds
import ObjectGraph.Proofs.Memory.Runs
import ObjectGraph.Proofs.Query.Marks
import ObjectGraph.Proofs.StableSort

namespace ObjectGraph

/-- Whether the operation does not follow an edge that is called `id`. -/
def Operation.SparesKey : Operation → Prop
  | .edge name _ => name ≠ "id"
  | _ => True

lemma sparesKey_marked (step : Operation) : step.marked.SparesKey ↔ step.SparesKey := by
  cases step <;> exact .rfl

/-- The resolver hands out items that are made of members. -/
def Resolver.Normalized (resolver : Resolver) : Prop :=
  ∀ history type id item, resolver.object history type id = .ok (some item) →
    ∃ members, item = .ofMembers members

/-! ### Items -/

namespace Item

variable {item : Item}

/-- Whether a key `id` is the only one. -/
def Unambiguous (item : Item) : Prop := "id" ∈ item.keys → item.keys = ["id"]

lemma unambiguous_of_not_mem (h : "id" ∉ item.keys) : item.Unambiguous :=
  fun hid => absurd hid h

lemma Unambiguous.get?_eq (h : item.Unambiguous) : item.get? idKey = item.get? "id" := by
  have hnone : item.members.get? "id" = none ∨ item.members.get? idKey = none := by
    by_cases hid : "id" ∈ item.keys
    · exact .inr (get?_eq_none (by rw [h hid]; decide))
    · exact .inl (get?_eq_none hid)
  rw [get?, get?, if_neg idKey_ne_id, if_pos rfl, if_pos rfl]
  rcases hnone with hnone | hnone
  · rw [hnone, Option.or_none, Option.none_or]
  · rw [hnone, Option.or_none, Option.none_or]

lemma Unambiguous.get?_marked (h : item.Unambiguous) (reference : String) :
    item.get? (unqualified (markedReference reference)) = item.get? (unqualified reference) := by
  rcases unqualified_markedReference reference with hsame | ⟨hid, hkey⟩
  · rw [hsame]
  · rw [hid, hkey, h.get?_eq]

lemma outputKey_marked (reference : String) :
    outputKey (unqualified (markedReference reference)) = outputKey (unqualified reference) := by
  rcases unqualified_markedReference reference with hsame | ⟨hid, hkey⟩
  · rw [hsame]
  · rw [hid, hkey]
    decide

lemma mem_keys_insert {key name : String} {value : Json} :
    key ∈ (item.insert name value).keys ↔ key = name ∨ key ∈ item.keys :=
  Named.mem_keys_put

lemma Unambiguous.project_marked (h : item.Unambiguous) (fields : List String) :
    item.project (fields.map markedReference) = item.project fields := by
  simp only [project, List.foldl_map, outputKey_marked, valueOf, h.get?_marked]

lemma id_not_mem_project (item : Item) (fields : List String) :
    "id" ∉ (item.project fields).keys := by
  have hfold (projected : Item) (hp : "id" ∉ projected.keys) :
      "id" ∉ (fields.foldl (fun projected reference =>
        projected.insert (outputKey (unqualified reference))
          ((item.valueOf reference).getD .null)) projected).keys := by
    induction fields generalizing projected with
    | nil => exact hp
    | cons reference rest ih =>
      refine ih _ fun hm => (mem_keys_insert.1 hm).elim (fun hid => ?_) hp
      exact normalizeKey_ne_id _ hid.symm
  exact hfold empty (by decide)

lemma rename_marked (item : Item) (old new : String) :
    item.rename (markedReference old) new = item.rename old new := by
  simp only [rename, outputKey_marked]

/-- A rename neither finds nor gives the key `id`. -/
lemma id_mem_rename {old new : String} (h : "id" ∈ (item.rename old new).keys) :
    "id" ∈ item.keys := by
  obtain ⟨entry, hentry, hkey⟩ := List.mem_map.1 (Named.mem_keys_collapse.1 h)
  obtain ⟨⟨key, value⟩, hm, rfl⟩ := List.mem_map.1 hentry
  have hkey : (if key = outputKey (unqualified old) then outputKey (unqualified new) else key)
      = "id" := hkey
  split at hkey
  · exact absurd hkey (normalizeKey_ne_id _)
  · exact hkey ▸ List.mem_map_of_mem hm

lemma Unambiguous.rename (h : item.Unambiguous) (old new : String) :
    (item.rename old new).Unambiguous := by
  intro hid
  have hkeys : item.keys = ["id"] := h (id_mem_rename hid)
  obtain ⟨⟨key, value⟩, hentries, hkey⟩ := List.map_eq_singleton_iff.1 hkeys
  obtain rfl : key = "id" := hkey
  have hold : "id" ≠ outputKey (unqualified old) := (normalizeKey_ne_id _).symm
  rw [keys, Item.rename, OrderedMap.keys, OrderedMap.ofList, hentries, List.map_singleton]
  simp only [if_neg hold]
  rfl

end Item

/-! ### Conditions and groups -/

mutual

lemma evaluate_marked {item : Item} (h : item.Unambiguous) : ∀ predicate : Predicate,
    predicate.marked.evaluate item = predicate.evaluate item
  | .all parts => evaluateAll_marked h parts
  | .any parts => evaluateAny_marked h parts
  | .negation part => congrArg (!·) (evaluate_marked h part)
  | .comparison field operator value => by
    simp only [Predicate.marked, Predicate.evaluate, Item.valueOf, h.get?_marked]
  | .oneOf field values => by
    simp only [Predicate.marked, Predicate.evaluate, Item.valueOf, h.get?_marked]
  | .isNull field => by
    simp only [Predicate.marked, Predicate.evaluate, Item.valueOf, h.get?_marked]

lemma evaluateAll_marked {item : Item} (h : item.Unambiguous) : ∀ parts : List Predicate,
    Predicate.evaluateAll item (Predicate.markedParts parts) = Predicate.evaluateAll item parts
  | [] => rfl
  | part :: rest => congrArg₂ (· && ·) (evaluate_marked h part) (evaluateAll_marked h rest)

lemma evaluateAny_marked {item : Item} (h : item.Unambiguous) : ∀ parts : List Predicate,
    Predicate.evaluateAny item (Predicate.markedParts parts) = Predicate.evaluateAny item parts
  | [] => rfl
  | part :: rest => congrArg₂ (· || ·) (evaluate_marked h part) (evaluateAny_marked h rest)

end

/-- Sorting asks for the order of the elements of a list only. -/
lemma Stable.sort_congr {α : Type} {order other : α → α → Ordering} {l : List α}
    (h : ∀ a ∈ l, ∀ b ∈ l, order a b = other a b) : sort order l = sort other l := by
  rw [sort_eq_map_attach order, sort_eq_map_attach other]
  refine congrArg (List.map Subtype.val) (congrArg (sort · l.attach) ?_)
  funext a b
  exact h a.1 a.2 b.1 b.2

lemma runs_congr {key other : String} {items : List Item}
    (h : ∀ item ∈ items, item.get? key = item.get? other) :
    Group.runs key items = Group.runs other items := by
  induction items with
  | nil => rfl
  | cons item rest ih =>
    obtain ⟨hitem, hrest⟩ := List.forall_mem_cons.1 h
    simp only [Group.runs, ih hrest, Item.groupKey, hitem]
    rfl

lemma groupBy_congr {key other : String} {items : List Item}
    (h : ∀ item ∈ items, item.get? key = item.get? other) :
    groupBy key items = groupBy other items := by
  have hsort : Stable.sort (Item.orderBy key) items = Stable.sort (Item.orderBy other) items :=
    Stable.sort_congr fun a ha b hb => by rw [Item.orderBy, Item.orderBy, h a ha, h b hb]
  rw [groupBy, groupBy, hsort, gatherRuns, gatherRuns,
    runs_congr fun item hm => h item (Stable.mem_sort.1 hm)]

/-! ### Rows -/

namespace Rows

variable {rows other : Rows}

/-- The items of rows are unambiguous, and objects of a type have no key `id` at all. -/
structure Clear (rows : Rows) : Prop where
  items : ∀ row ∈ rows.rows, row.item.Unambiguous
  typed : rows.type ≠ none → ∀ row ∈ rows.rows, "id" ∉ row.item.keys

namespace Clear

lemma of_not_mem (h : ∀ row ∈ rows.rows, "id" ∉ row.item.keys) : rows.Clear :=
  ⟨fun row hm => Item.unambiguous_of_not_mem (h row hm), fun _ => h⟩

lemma subset (h : rows.Clear) (ht : other.type = rows.type)
    (hs : ∀ row ∈ other.rows, row ∈ rows.rows) : other.Clear :=
  ⟨fun row hm => h.items row (hs row hm), fun hne row hm => h.typed (ht ▸ hne) row (hs row hm)⟩

lemma aggregated {items : List Item} (h : ∀ item ∈ items, item.Unambiguous) :
    (Rows.aggregated items).Clear :=
  ⟨List.forall_mem_map.2 h, fun hne => absurd rfl hne⟩

lemma append (h : rows.Clear) (ho : other.Clear) : (rows.append other).Clear := by
  refine ⟨fun row hm => (List.mem_append.1 hm).elim (h.items row) (ho.items row), fun hne => ?_⟩
  have htype : (if other.type = rows.type then rows.type else none) ≠ none := hne
  split at htype
  · rename_i hsame
    exact fun row hm =>
      (List.mem_append.1 hm).elim (h.typed htype row) (ho.typed (hsame ▸ htype) row)
  · exact absurd rfl htype

lemma apply (h : rows.Clear) (step : Operation) : (rows.apply step).Clear := by
  cases step with
  | project fields =>
    exact of_not_mem (List.forall_mem_map.2 fun row _ => row.item.id_not_mem_project fields)
  | filter predicate => exact h.subset rfl fun row hm => List.mem_of_mem_filter hm
  | take n => exact h.subset rfl fun row hm => List.mem_of_mem_take hm
  | skip n => exact h.subset rfl fun row hm => List.mem_of_mem_drop hm
  | count =>
    refine aggregated (List.forall_mem_singleton.2 (Item.unambiguous_of_not_mem fun hid => ?_))
    exact (Item.mem_keys_insert.1 hid).elim (by decide) (by decide)
  | nest key =>
    refine aggregated (List.forall_mem_singleton.2 fun hid => ?_)
    obtain rfl : "id" = key := (Item.mem_keys_insert.1 hid).resolve_right (by decide)
    rfl
  | rename old new =>
    refine ⟨List.forall_mem_map.2 fun row hm => (h.items row hm).rename old new, fun hne => ?_⟩
    exact List.forall_mem_map.2 fun row hm hid => h.typed hne row hm (Item.id_mem_rename hid)
  | orderBy key direction => exact h.subset rfl fun row hm => Stable.mem_sort.1 hm
  | groupBy key =>
    refine aggregated (List.forall_mem_map.2 fun group _ => ?_)
    refine Item.unambiguous_of_not_mem fun hid => ?_
    refine (Item.mem_keys_insert.1 hid).elim (by decide) fun hid => ?_
    exact (Item.mem_keys_insert.1 hid).elim (by decide) (by decide)
  | edge | union => exact h

/-- What an operation makes of clear rows does not depend on how it spells the identity. -/
lemma apply_marked (h : rows.Clear) (step : Operation) :
    rows.apply step.marked = rows.apply step := by
  cases step with
  | project fields =>
    refine congrArg (Rows.mk · rows.type) (List.map_congr_left fun row hm => ?_)
    exact congrArg (Row.mk · row.origin) ((h.items row hm).project_marked fields)
  | filter predicate =>
    refine congrArg (Rows.mk · rows.type) (List.filter_congr fun row hm => ?_)
    exact evaluate_marked (h.items row hm) predicate
  | rename old new =>
    exact congrArg rows.mapItems (funext fun item => item.rename_marked old new)
  | orderBy key direction =>
    refine congrArg (Rows.mk · rows.type) (Stable.sort_congr fun a ha b hb => ?_)
    have horder : a.item.orderBy (unqualified (markedReference key)) b.item
        = a.item.orderBy (unqualified key) b.item := by
      rw [Item.orderBy, Item.orderBy, (h.items a ha).get?_marked, (h.items b hb).get?_marked]
    cases direction with
    | ascending => exact horder
    | descending => exact congrArg Ordering.swap horder
  | groupBy key =>
    refine congrArg Rows.aggregated (groupBy_congr (List.forall_mem_map.2 fun row hm => ?_))
    exact (h.items row hm).get?_marked key
  | take | skip | count | nest | edge | union => rfl

/-- Attaching the value of an edge keeps rows clear unless the edge is called `id`. -/
lemma attach {type name : String} (h : rows.Clear) (ht : rows.type = some type)
    (hn : name ≠ "id") (cardinality : Cardinality) (reached : List (List Item)) :
    (Rows.mk (List.zipWith (Graph.attach name cardinality) rows.rows reached)
      (some type)).Clear := by
  refine of_not_mem fun row hm => ?_
  simp only [← List.map_uncurry_zip_eq_zipWith, List.mem_map] at hm
  obtain ⟨⟨before, values⟩, hb, rfl⟩ := hm
  have hbefore : "id" ∉ before.item.keys :=
    h.typed (by rw [ht]; exact Option.some_ne_none type) before (List.of_mem_zip hb).1
  exact fun hid => (Item.mem_keys_insert.1 hid).elim (fun he => hn he.symm) hbefore

end Clear

end Rows

/-! ### Runs -/

namespace Run

variable {α β : Type} {holds : α → Prop} {goal : β → Prop}

/-- Two runs are the same, and what they give has a property. -/
def Same (holds : α → Prop) (x y : Run α) : Prop :=
  y = x ∧ ∀ (history later : History) (a : α), x.run.run history = (.ok a, later) → holds a

lemma Same.refl (x : Run α) : Same (fun _ => True) x x := ⟨rfl, fun _ _ _ _ => trivial⟩

lemma Same.pure {a : α} (h : holds a) : Same holds (Pure.pure a) (Pure.pure a) := by
  refine ⟨rfl, fun history later b hb => ?_⟩
  obtain ⟨⟨rfl⟩, -⟩ := Prod.mk.inj hb
  exact h

lemma Same.fail (e : RunError) : Same holds (fail e) (fail e) := by
  refine ⟨rfl, fun history later a ha => ?_⟩
  cases ha

lemma Same.lift {x : Except RunError α} (h : ∀ a, x = .ok a → holds a) :
    Same holds (liftM x) (liftM x) := by
  cases x with
  | error e => exact Same.fail e
  | ok a => exact Same.pure (h a rfl)

lemma Same.bind {x y : Run α} {f g : α → Run β} (hx : Same holds x y)
    (hf : ∀ a, holds a → Same goal (f a) (g a)) : Same goal (x >>= f) (y >>= g) := by
  obtain ⟨rfl, hx⟩ := hx
  constructor
  · funext history
    show (y >>= g).run.run history = (y >>= f).run.run history
    rw [run_bind, run_bind]
    rcases hr : y.run.run history with ⟨e | a, between⟩
    · rfl
    · exact congrArg (fun z : Run β => z.run.run between) (hf a (hx history between a hr)).1
  · intro history later b hb
    rw [run_bind] at hb
    rcases hr : y.run.run history with ⟨e | a, between⟩
    · rw [hr] at hb
      cases hb
    · rw [hr] at hb
      exact (hf a (hx history between a hr)).2 between later b hb

lemma Same.forEach {f g : α → Run β} {l : List α} (hf : ∀ a ∈ l, Same goal (f a) (g a)) :
    Same (∀ b ∈ ·, goal b) (forEach f l) (forEach g l) := by
  induction l with
  | nil => exact Same.pure (List.forall_mem_nil _)
  | cons a rest ih =>
    obtain ⟨ha, hrest⟩ := List.forall_mem_cons.1 hf
    exact ha.bind fun b hb => (ih hrest).bind fun bs hbs =>
      Same.pure (List.forall_mem_cons.2 ⟨hb, hbs⟩)

lemma Same.ask {call : Except String α → Call} {answer : History → Except String α}
    (h : ∀ history a, answer history = .ok a → holds a) :
    Same holds (ask call answer) (ask call answer) := by
  refine ⟨rfl, fun history later a ha => ?_⟩
  rw [run_ask] at ha
  obtain ⟨hanswer, -⟩ := Prod.mk.inj ha
  cases hgiven : answer history with
  | error reason =>
    rw [hgiven] at hanswer
    cases hanswer
  | ok b =>
    rw [hgiven] at hanswer
    exact Except.ok.inj hanswer ▸ h history b hgiven

end Run

open Run (Same)

namespace Graph

variable {graph : Graph} {rows : Rows}

lemma resolveObjects_same (hr : graph.resolver.Normalized) (name : String) (ids : List Int64) :
    Same (∀ row ∈ ·, "id" ∉ row.item.keys) (graph.resolveObjects name ids)
      (graph.resolveObjects name ids) := by
  unfold resolveObjects
  split
  · exact Same.fail _
  · have hask (id : Int64) : Same (fun answer => ∀ item : Item, answer = some item →
        "id" ∉ item.keys) (Run.askObject graph.resolver name id)
        (Run.askObject graph.resolver name id) := by
      refine Same.ask fun history answer hanswer item hitem => ?_
      obtain ⟨members, rfl⟩ := hr history name id item (hitem ▸ hanswer)
      exact Item.id_not_mem_keys_ofMembers members
    refine (Same.forEach fun id _ => hask id).bind fun answers hanswers => ?_
    refine Same.lift fun objects hobjects => ?_
    obtain rfl := eq_of_checkObjects hobjects
    refine List.forall_mem_map.2 fun item hitem => ?_
    obtain ⟨entry, hentry, heq⟩ := List.mem_filterMap.1 hitem
    exact hanswers entry.2 (List.of_mem_zip hentry).2 item heq

lemma objects_same (hr : graph.resolver.Normalized) (name : String) (ids : List Int64) :
    Same Rows.Clear (do return ⟨← graph.resolveObjects name ids, some name⟩)
      (do return ⟨← graph.resolveObjects name ids, some name⟩) :=
  (resolveObjects_same hr name ids).bind fun _ hobjects =>
    Same.pure (Rows.Clear.of_not_mem hobjects)

lemma resolveSource_same (hr : graph.resolver.Normalized) (source : Source) :
    Same Rows.Clear (graph.resolveSource source) (graph.resolveSource source) := by
  unfold resolveSource
  cases source.ids with
  | some ids => exact (Same.refl _).bind fun ids _ => objects_same hr source.objectType ids
  | none => exact (Same.refl _).bind fun ids _ => objects_same hr source.objectType ids

lemma reach_same (hr : graph.resolver.Normalized) (type name : String) (edge : Edge) (row : Row) :
    Same Rows.Clear (graph.reach type name edge row) (graph.reach type name edge row) := by
  unfold reach
  cases row.origin with
  | none => exact Same.fail _
  | some origin => exact (Same.refl _).bind fun ids _ => objects_same hr edge.target ids

lemma apply_same (h : rows.Clear) (step : Operation) :
    Same Rows.Clear (pure (rows.apply step)) (pure (rows.apply step.marked)) := by
  rw [h.apply_marked step]
  exact Same.pure (h.apply step)

mutual

/-- From clear rows an operation and its marked form make the same calls and the same rows, and
these are clear. -/
lemma step_same (hr : graph.resolver.Normalized) :
    ∀ (step : Operation) {rows : Rows}, rows.Clear → step.Throughout Operation.SparesKey →
      Same Rows.Clear (graph.step rows step) (graph.step rows step.marked)
  | .edge name inner, rows, h, hs => by
    rw [Operation.marked, step_edge, step_edge]
    refine (Same.lift fun found hfound => (edgeOf_eq_ok hfound).1).bind fun found htype => ?_
    have hfollow (row : Row) : Same (fun _ => True) (graph.follow found.1 name found.2 inner row)
        (graph.follow found.1 name found.2 (Operation.markedSteps inner) row) :=
      (reach_same hr found.1 name found.2 row).bind fun first hfirst =>
        (pipeline_same hr inner hfirst hs.2).bind fun last _ => Same.refl _
    refine (Same.forEach fun row _ => hfollow row).bind fun reached _ => ?_
    exact Same.pure (h.attach htype hs.1 found.2.cardinality reached)
  | .union queries, rows, h, hs => by
    rw [Operation.marked, Graph.step, Graph.step]
    exact appendAll_same hr queries h hs.2
  | .project fields, rows, h, _ => apply_same h (.project fields)
  | .filter predicate, rows, h, _ => apply_same h (.filter predicate)
  | .take n, rows, h, _ => apply_same h (.take n)
  | .skip n, rows, h, _ => apply_same h (.skip n)
  | .count, rows, h, _ => apply_same h .count
  | .nest key, rows, h, _ => apply_same h (.nest key)
  | .rename old new, rows, h, _ => apply_same h (.rename old new)
  | .orderBy key direction, rows, h, _ => apply_same h (.orderBy key direction)
  | .groupBy key, rows, h, _ => apply_same h (.groupBy key)

lemma pipeline_same (hr : graph.resolver.Normalized) :
    ∀ (steps : List Operation) {rows : Rows}, rows.Clear →
      Operation.stepsThroughout Operation.SparesKey steps →
      Same Rows.Clear (graph.pipeline rows steps)
        (graph.pipeline rows (Operation.markedSteps steps))
  | [], rows, h, _ => Same.pure h
  | step :: rest, rows, h, hs => by
    rw [Operation.markedSteps, Graph.pipeline, Graph.pipeline]
    exact (step_same hr step h hs.1).bind fun middle hmiddle =>
      pipeline_same hr rest hmiddle hs.2

lemma appendAll_same (hr : graph.resolver.Normalized) :
    ∀ (queries : List Query) {rows : Rows}, rows.Clear →
      Operation.branchesThroughout Operation.SparesKey queries →
      Same Rows.Clear (graph.appendAll rows queries)
        (graph.appendAll rows (Operation.markedBranches queries))
  | [], rows, h, _ => Same.pure h
  | ⟨source, operations⟩ :: rest, rows, h, hs => by
    rw [Operation.markedBranches, Graph.appendAll, Graph.appendAll]
    refine (resolveSource_same hr source).bind fun first hfirst => ?_
    refine (pipeline_same hr operations hfirst hs.1).bind fun branch hbranch => ?_
    exact appendAll_same hr rest (h.append hbranch) hs.2

end

/-- A query and its marked form make the same calls and end in the same result or error. -/
lemma run_marked (hr : graph.resolver.Normalized) {query : Query}
    (hs : query.Throughout Operation.SparesKey) : graph.run query.marked = graph.run query := by
  have hrows : graph.rows query.marked = graph.rows query :=
    ((resolveSource_same hr query.source).bind fun first hfirst =>
      pipeline_same hr query.operations hfirst hs).1
  rw [run, run, hrows]

end Graph
end ObjectGraph
