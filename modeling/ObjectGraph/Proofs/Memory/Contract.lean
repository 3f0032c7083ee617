/-
# What a resolver is asked for

A run keeps a contract with its resolver.  It asks for objects of types in the catalog only, and
it follows an edge only from an object of the type that declares the edge: one that the resolver
handed out as such before, as it was then, whatever projections and renamings and attached edges
made of it since.

The contract rests on an invariant of rows.  While they have a type, there is an object behind
each of them that was handed out as one of that type.  Every operation keeps the invariant, those
inside edges and unions as well, and aggregation keeps it by giving up the type.
-/
import ObjectGraph.Proofs.Memory.Soundness

namespace ObjectGraph

/-! ### Lawful calls -/

/-- A resolver handed out an object of a type. -/
def History.HandedOut (history : History) (type : String) (item : Item) : Prop :=
  ∃ id, Call.object type id (.ok (some item)) ∈ history

/-- Whether the contract allows a call after some others. -/
def Call.Allowed (catalog : Catalog) (earlier : History) : Call → Prop
  | .object type _ _ => ∃ found, catalog.type? type = some found
  | .edge type item name _ =>
    (∃ found, catalog.edge? type name = some found) ∧ earlier.HandedOut type item
  | .all _ _ => True

/-- Every call is allowed after those before it. -/
def History.Lawful (catalog : Catalog) (history : History) : Prop :=
  ∀ later call earlier, history = later ++ call :: earlier → call.Allowed catalog earlier

section Histories

variable {catalog : Catalog} {history later : History}

lemma History.HandedOut.mono {type : String} {item : Item} (h : history.HandedOut type item)
    (hl : history <:+ later) : later.HandedOut type item := by
  obtain ⟨id, hm⟩ := h
  exact ⟨id, hl.subset hm⟩

lemma History.lawful_nil : History.Lawful catalog [] := by
  intro later call earlier h
  simp at h

lemma History.Lawful.cons {call : Call} (h : history.Lawful catalog)
    (hc : call.Allowed catalog history) : History.Lawful catalog (call :: history) := by
  intro later last earlier heq
  rcases List.cons_eq_append_iff.1 heq with ⟨rfl, hlast⟩ | ⟨rest, rfl, hrest⟩
  · obtain ⟨rfl, rfl⟩ := List.cons.inj hlast
    exact hc
  · exact h rest last earlier hrest

end Histories

/-! ### Runs that keep the contract -/

namespace Run

variable {α β : Type} {catalog : Catalog} {before : History → Prop}

/-- Started after lawful calls with a property, a run makes lawful calls only and adds them to
those before; if it gives a result, this has a property together with all calls. -/
def Keeps (catalog : Catalog) (before : History → Prop) (x : Run α)
    (after : α → History → Prop) : Prop :=
  ∀ history : History, history.Lawful catalog → before history →
    (x.run.run history).2.Lawful catalog ∧ history <:+ (x.run.run history).2 ∧
      ∀ a, (x.run.run history).1 = .ok a → after a (x.run.run history).2

/-- Once a property holds it holds whatever else is asked. -/
def Lasting (p : History → Prop) : Prop := ∀ history later, history <:+ later → p history → p later

lemma Keeps.pure {after : α → History → Prop} {a : α}
    (h : ∀ history, before history → after a history) :
    Keeps catalog before (Pure.pure a) after := by
  intro history hl hb
  refine ⟨hl, List.suffix_refl _, ?_⟩
  rintro _ ⟨⟩
  exact h history hb

lemma Keeps.fail {after : α → History → Prop} {e : RunError} :
    Keeps catalog before (fail e) after := by
  intro history hl _
  refine ⟨hl, List.suffix_refl _, ?_⟩
  rintro _ ⟨⟩

lemma Keeps.lift {after : α → History → Prop} {x : Except RunError α}
    (h : ∀ a, x = .ok a → ∀ history, before history → after a history) :
    Keeps catalog before (liftM x) after := by
  cases x with
  | error e => exact Keeps.fail
  | ok a => exact Keeps.pure (h a rfl)

lemma Keeps.bind {middle : α → History → Prop} {after : β → History → Prop} {x : Run α}
    {f : α → Run β} (hx : Keeps catalog before x middle)
    (hf : ∀ a, Keeps catalog (middle a) (f a) after) : Keeps catalog before (x >>= f) after := by
  intro history hl hb
  have hrun := hx history hl hb
  rw [run_bind]
  rcases hr : x.run.run history with ⟨e | a, between⟩
  · rw [hr] at hrun
    exact ⟨hrun.1, hrun.2.1, by rintro _ ⟨⟩⟩
  · rw [hr] at hrun
    obtain ⟨hlawful, hsuffix, hmiddle⟩ := hrun
    obtain ⟨hlast, hmore, hafter⟩ := hf a between hlawful (hmiddle a rfl)
    exact ⟨hlast, hsuffix.trans hmore, hafter⟩

lemma Keeps.of_run {after : α → History → Prop} {x : Run α} {a : α} {history later : History}
    (hx : Keeps catalog before x after) (hl : history.Lawful catalog) (hb : before history)
    (hr : x.run.run history = (.ok a, later)) :
    later.Lawful catalog ∧ history <:+ later ∧ after a later := by
  have h := hx history hl hb
  rw [hr] at h
  exact ⟨h.1, h.2.1, h.2.2 a rfl⟩

/-- What does not depend on the calls may be used about the run. -/
lemma Keeps.of_fact {after : α → History → Prop} {fact : Prop} {x : Run α}
    (h : fact → Keeps catalog before x after) :
    Keeps catalog (fun history => fact ∧ before history) x after :=
  fun history hl hb => h hb.1 history hl hb.2

/-- What lasts holds after a run as it did before. -/
lemma Keeps.frame {after : α → History → Prop} {p : History → Prop} {x : Run α}
    (hx : Keeps catalog before x after) (hp : Lasting p)
    (hb : ∀ history, p history → before history) :
    Keeps catalog p x fun a history => after a history ∧ p history := by
  intro history hl h
  obtain ⟨hlawful, hsuffix, hafter⟩ := hx history hl (hb history h)
  exact ⟨hlawful, hsuffix, fun a ha => ⟨hafter a ha, hp history _ hsuffix h⟩⟩

lemma Keeps.forEach {after : β → History → Prop} {f : α → Run β} {l : List α}
    (hb : Lasting before) (ha : ∀ b, Lasting (after b))
    (hf : ∀ a ∈ l, Keeps catalog before (f a) after) :
    Keeps catalog before (forEach f l) fun found history => ∀ b ∈ found, after b history := by
  induction l with
  | nil => exact Keeps.pure fun history _ => by simp
  | cons a rest ih =>
    have hrest := ih fun a hm => hf a (List.mem_cons_of_mem _ hm)
    refine ((hf a List.mem_cons_self).frame hb fun _ h => h).bind fun b => ?_
    have hlast : Lasting fun history => after b history ∧ before history :=
      fun history later hs h => ⟨ha b history later hs h.1, hb history later hs h.2⟩
    refine (hrest.frame hlast fun _ h => h.2).bind fun found => Keeps.pure fun history h => ?_
    exact List.forall_mem_cons.2 ⟨h.2.1, h.1⟩

lemma Keeps.ask {after : α → History → Prop} {call : Except String α → Call}
    {answer : History → Except String α}
    (hc : ∀ history, before history → (call (answer history)).Allowed catalog history)
    (ha : ∀ history a, answer history = .ok a → after a (call (.ok a) :: history)) :
    Keeps catalog before (ask call answer) after := by
  intro history hl hb
  rw [run_ask]
  refine ⟨hl.cons (hc history hb), List.suffix_cons _ _, fun a hok => ?_⟩
  cases hanswer : answer history with
  | error reason =>
    rw [hanswer] at hok
    cases hok
  | ok found =>
    rw [hanswer] at hok
    obtain rfl := Except.ok.inj hok
    exact ha history found hanswer

end Run

open Run (Keeps Lasting)

/-! ### Rows and the objects behind them -/

/-- While rows have a type, the object behind each of them was handed out as one of that type. -/
def Rows.Sourced (rows : Rows) (history : History) : Prop :=
  ∀ type, rows.type = some type →
    ∀ row ∈ rows.rows, ∃ origin, row.origin = some origin ∧ history.HandedOut type origin

namespace Rows

variable {rows other : Rows} {history : History}

lemma sourced_lasting (rows : Rows) : Lasting rows.Sourced := by
  intro history later hs h type ht row hm
  obtain ⟨origin, ho, hgiven⟩ := h type ht row hm
  exact ⟨origin, ho, hgiven.mono hs⟩

lemma sourced_of_type_eq_none (h : rows.type = none) : rows.Sourced history := by
  intro type ht
  rw [h] at ht
  cases ht

/-- Rows have the objects behind them that other rows of the same type had. -/
lemma Sourced.of_origins (h : rows.Sourced history) (ht : other.type = rows.type)
    (ho : ∀ row ∈ other.rows, ∃ before ∈ rows.rows, row.origin = before.origin) :
    other.Sourced history := by
  intro type htype row hm
  obtain ⟨before, hb, heq⟩ := ho row hm
  obtain ⟨origin, horigin, hgiven⟩ := h type (ht.symm.trans htype) before hb
  exact ⟨origin, heq.trans horigin, hgiven⟩

lemma Sourced.append (h : rows.Sourced history) (ho : other.Sourced history) :
    (rows.append other).Sourced history := by
  intro type ht row hm
  simp only [Rows.append] at ht hm
  split at ht
  · rename_i heq
    rcases List.mem_append.1 hm with hm | hm
    · exact h type ht row hm
    · exact ho type (heq.trans ht) row hm
  · cases ht

/-- An operation that needs no other objects keeps the objects behind the rows. -/
lemma Sourced.apply (h : rows.Sourced history) (operation : Operation) :
    (rows.apply operation).Sourced history := by
  cases operation with
  | project fields | rename old new =>
    refine h.of_origins rfl fun row hm => ?_
    obtain ⟨before, hb, rfl⟩ := List.mem_map.1 hm
    exact ⟨before, hb, rfl⟩
  | filter predicate => exact h.of_origins rfl fun row hm => ⟨row, (List.mem_filter.1 hm).1, rfl⟩
  | take n => exact h.of_origins rfl fun row hm => ⟨row, List.mem_of_mem_take hm, rfl⟩
  | skip n => exact h.of_origins rfl fun row hm => ⟨row, List.mem_of_mem_drop hm, rfl⟩
  | orderBy key direction =>
    exact h.of_origins rfl fun row hm => ⟨row, Stable.mem_sort.1 hm, rfl⟩
  | count | nest key | groupBy key => exact sourced_of_type_eq_none rfl
  | edge name inner | union queries => exact h

end Rows

namespace Graph

variable {graph : Graph} {rows : Rows} {name type : String} {edge : Edge}

/-- The objects that were found are behind the rows made of them. -/
lemma origin_of_checkObjects {found : ObjectType} {entries : List (Int64 × Option Item)}
    {objects : List Row} (h : graph.checkObjects name found entries = .ok objects) :
    ∀ row ∈ objects, ∃ item, row.origin = some item ∧ some item ∈ entries.map Prod.snd := by
  obtain rfl := eq_of_checkObjects h
  intro row hm
  obtain ⟨item, hitem, rfl⟩ := List.mem_map.1 hm
  obtain ⟨entry, hentry, heq⟩ := List.mem_filterMap.1 hitem
  exact ⟨item, rfl, List.mem_map.2 ⟨entry, hentry, heq⟩⟩

lemma resolveObjects_keeps (graph : Graph) (name : String) (ids : List Int64) :
    Keeps graph.catalog (fun _ => True) (graph.resolveObjects name ids) fun objects history =>
      (Rows.mk objects (some name)).Sourced history := by
  unfold resolveObjects
  split
  · exact Keeps.fail
  · rename_i found htype
    have hask : ∀ id ∈ ids, Keeps graph.catalog (fun _ => True)
        (Run.askObject graph.resolver name id) fun answer history =>
          ∀ item, answer = some item → history.HandedOut name item := by
      intro id _
      refine Keeps.ask (fun _ _ => ⟨found, htype⟩) fun history answer _ item hitem => ?_
      exact ⟨id, hitem ▸ List.mem_cons_self⟩
    have hlast : ∀ answer : Option Item, Lasting fun history =>
        ∀ item, answer = some item → history.HandedOut name item :=
      fun answer history later hs h item hitem => (h item hitem).mono hs
    refine (Keeps.forEach (fun _ _ _ h => h) hlast hask).bind fun answers => ?_
    refine Keeps.lift fun objects hobjects history hgiven => ?_
    rintro _ ⟨⟩ row hm
    obtain ⟨item, ho, hitem⟩ := origin_of_checkObjects hobjects row hm
    obtain ⟨entry, hentry, heq⟩ := List.mem_map.1 hitem
    exact ⟨item, ho, hgiven entry.2 (List.of_mem_zip hentry).2 item heq⟩

lemma resolveSource_keeps (graph : Graph) (source : Source) :
    Keeps graph.catalog (fun _ => True) (graph.resolveSource source) Rows.Sourced := by
  have hobjects (ids : List Int64) : Keeps graph.catalog (fun _ => True) (do
      return ⟨← graph.resolveObjects source.objectType ids, some source.objectType⟩ : Run Rows)
      Rows.Sourced :=
    (resolveObjects_keeps graph source.objectType ids).bind fun objects =>
      Keeps.pure fun _ h => h
  have hall : Keeps graph.catalog (fun _ => True) (Run.askAll graph.resolver source.objectType)
      fun _ _ => True := by
    unfold Run.askAll
    split
    · exact Keeps.ask (fun _ _ => by trivial) fun _ _ _ => trivial
    · exact Keeps.fail
  unfold resolveSource
  cases source.ids with
  | some ids => exact (Keeps.pure fun _ h => h).bind fun ids => hobjects ids
  | none => exact hall.bind hobjects

/-- The objects an edge reaches are asked for from an object that was handed out. -/
lemma reach_keeps (ht : rows.type = some type) (he : graph.catalog.edge? type name = some edge)
    {row : Row} (hm : row ∈ rows.rows) :
    Keeps graph.catalog rows.Sourced (graph.reach type name edge row) Rows.Sourced := by
  unfold reach
  split
  · exact Keeps.fail
  · rename_i origin horigin
    have hask : Keeps graph.catalog rows.Sourced
        (Run.askEdge graph.resolver type origin name) fun _ _ => True := by
      refine Keeps.ask (fun history h => ?_) fun _ _ _ => trivial
      obtain ⟨other, ho, hgiven⟩ := h type ht row hm
      obtain rfl := Option.some.inj (horigin.symm.trans ho)
      exact ⟨⟨edge, he⟩, hgiven⟩
    exact hask.bind fun ids =>
      (resolveObjects_keeps graph edge.target ids).bind fun objects => Keeps.pure fun _ h => h

/-! ### Operations -/

/-- The items an edge reaches from a row, after the operations inside the edge. -/
def follow (graph : Graph) (type name : String) (edge : Edge) (inner : List Operation)
    (row : Row) : Run (List Item) := do
  return (← graph.pipeline (← graph.reach type name edge row) inner).items

lemma step_edge (graph : Graph) (rows : Rows) (name : String) (inner : List Operation) :
    graph.step rows (.edge name inner) = do
      let (type, edge) ← graph.edgeOf rows name
      let reached ← Run.forEach (graph.follow type name edge inner) rows.rows
      return ⟨List.zipWith (attach name edge.cardinality) rows.rows reached, some type⟩ := by
  rw [step]
  rfl

lemma edgeOf_eq_ok {found : String × Edge} (h : graph.edgeOf rows name = .ok found) :
    rows.type = some found.1 ∧ graph.catalog.edge? found.1 name = some found.2 := by
  unfold edgeOf at h
  split at h
  · cases h
  · rename_i type ht
    split at h
    · rename_i edge he
      obtain rfl := Except.ok.inj h
      exact ⟨ht, he⟩
    · cases h

/-- Attached values leave the objects behind the rows alone. -/
lemma sourced_attach {history : History} (h : rows.Sourced history) (ht : rows.type = some type)
    (cardinality : Cardinality) (reached : List (List Item)) :
    (Rows.mk (List.zipWith (attach name cardinality) rows.rows reached)
      (some type)).Sourced history := by
  refine h.of_origins ht.symm fun row hm => ?_
  simp only [← List.map_uncurry_zip_eq_zipWith, List.mem_map] at hm
  obtain ⟨⟨before, values⟩, hb, rfl⟩ := hm
  exact ⟨before, (List.of_mem_zip hb).1, rfl⟩

lemma apply_keeps (operation : Operation) :
    Keeps graph.catalog rows.Sourced (pure (rows.apply operation)) Rows.Sourced :=
  Keeps.pure fun _ h => h.apply operation

lemma follow_keeps {inner : List Operation}
    (hinner : ∀ first, Keeps graph.catalog first.Sourced (graph.pipeline first inner) Rows.Sourced)
    (ht : rows.type = some type) (he : graph.catalog.edge? type name = some edge) {row : Row}
    (hm : row ∈ rows.rows) :
    Keeps graph.catalog rows.Sourced (graph.follow type name edge inner row) fun _ _ => True :=
  (reach_keeps ht he hm).bind fun first =>
    (hinner first).bind fun _ => Keeps.pure fun _ _ => trivial

mutual

lemma step_keeps : ∀ (operation : Operation) (rows : Rows),
    Keeps graph.catalog rows.Sourced (graph.step rows operation) Rows.Sourced
  | .edge name inner, rows => by
    have hedge : Keeps graph.catalog rows.Sourced (liftM (graph.edgeOf rows name))
        fun found history => (rows.type = some found.1 ∧
          graph.catalog.edge? found.1 name = some found.2) ∧ rows.Sourced history :=
      Keeps.lift fun found hfound history h => ⟨edgeOf_eq_ok hfound, h⟩
    rw [step_edge]
    refine hedge.bind fun found => Keeps.of_fact fun hfound => ?_
    have hfollow : ∀ row ∈ rows.rows, Keeps graph.catalog rows.Sourced
        (graph.follow found.1 name found.2 inner row) fun _ _ => True := fun row hm =>
      follow_keeps (pipeline_keeps inner) hfound.1 hfound.2 hm
    have heach := (Keeps.forEach rows.sourced_lasting (fun _ _ _ _ h => h) hfollow).frame
      rows.sourced_lasting fun _ h => h
    exact heach.bind fun reached => Keeps.pure fun _ h => sourced_attach h.2 hfound.1 _ reached
  | .union queries, rows => by
    rw [step]
    exact appendAll_keeps queries rows
  | .project fields, rows | .filter predicate, rows | .take n, rows | .skip n, rows
  | .count, rows | .nest key, rows | .rename old new, rows | .orderBy key direction, rows
  | .groupBy key, rows => apply_keeps _

lemma pipeline_keeps : ∀ (operations : List Operation) (rows : Rows),
    Keeps graph.catalog rows.Sourced (graph.pipeline rows operations) Rows.Sourced
  | [], _ => Keeps.pure fun _ h => h
  | operation :: rest, rows =>
    (step_keeps operation rows).bind fun after => pipeline_keeps rest after

lemma appendAll_keeps : ∀ (queries : List Query) (rows : Rows),
    Keeps graph.catalog rows.Sourced (graph.appendAll rows queries) Rows.Sourced
  | [], _ => Keeps.pure fun _ h => h
  | ⟨source, operations⟩ :: rest, rows => by
    have hsource := (resolveSource_keeps graph source).frame rows.sourced_lasting
      fun _ _ => trivial
    rw [appendAll]
    refine hsource.bind fun objects => ?_
    -- the rows so far are still there when the branch has been run
    have hbranch := (pipeline_keeps operations objects).frame
      (p := fun history => objects.Sourced history ∧ rows.Sourced history)
      (fun history later hs h => ⟨objects.sourced_lasting history later hs h.1,
        rows.sourced_lasting history later hs h.2⟩) fun _ h => h.1
    refine hbranch.bind fun branch => ?_
    have hrest := appendAll_keeps rest (rows.append branch)
    exact fun history hl h => hrest history hl (h.2.2.append h.1)

end

/-! ### Whole runs -/

/-- The rows that operations pass through when they are applied to some rows after some calls,
each with the calls made by then: the rows behind each operation, those of the pipelines inside
an edge, and in a union those of the branches and what they are appended to. -/
inductive Passes (graph : Graph) : Rows → History → List Operation → Rows → History → Prop
  | here (rows : Rows) (history : History) (operations : List Operation) :
    Passes graph rows history operations rows history
  | step {rows after found : Rows} {history later calls : History} {operation : Operation}
    {rest : List Operation}
    (hstep : (graph.step rows operation).run.run history = (.ok after, later))
    (h : Passes graph after later rest found calls) :
    Passes graph rows history (operation :: rest) found calls
  | edge {rows first found : Rows} {history between later calls : History} {type name : String}
    {edge : Edge} {inner rest : List Operation} {before behind : List Row} {row : Row}
    {values : List (List Item)} (hedge : graph.edgeOf rows name = .ok (type, edge))
    (hrows : rows.rows = before ++ row :: behind)
    (hbefore : (Run.forEach (graph.follow type name edge inner) before).run.run history
      = (.ok values, between))
    (hreach : (graph.reach type name edge row).run.run between = (.ok first, later))
    (h : Passes graph first later inner found calls) :
    Passes graph rows history (.edge name inner :: rest) found calls
  | branch {rows appended first found : Rows} {history between later calls : History}
    {before behind : List Query} {source : Source} {operations rest : List Operation}
    (hbefore : (graph.appendAll rows before).run.run history = (.ok appended, between))
    (hsource : (graph.resolveSource source).run.run between = (.ok first, later))
    (h : Passes graph first later operations found calls) :
    Passes graph rows history (.union (before ++ ⟨source, operations⟩ :: behind) :: rest) found
      calls
  | appended {rows found : Rows} {history calls : History} {before behind : List Query}
    {rest : List Operation}
    (hbefore : (graph.appendAll rows before).run.run history = (.ok found, calls)) :
    Passes graph rows history (.union (before ++ behind) :: rest) found calls

/-- The rows that the run of a query passes through, each with the calls made by then. -/
def Intermediate (graph : Graph) (query : Query) (found : Rows) (calls : History) : Prop :=
  ∃ first history, (graph.resolveSource query.source).run.run [] = (.ok first, history) ∧
    graph.Passes first history query.operations found calls

/-- A run that passes through rows has an object behind each of them while they have a type. -/
lemma Passes.sourced {found : Rows} {history calls : History} {operations : List Operation}
    (h : graph.Passes rows history operations found calls) (hl : history.Lawful graph.catalog)
    (hs : rows.Sourced history) : found.Sourced calls := by
  induction h with
  | here => exact hs
  | @step rows _ _ _ _ _ operation _ hstep _ ih =>
    obtain ⟨hlawful, -, hafter⟩ := (step_keeps operation rows).of_run hl hs hstep
    exact ih hlawful hafter
  | @edge rows _ _ _ _ _ _ type name edge inner _ before _ row _ hedge hrows hbefore hreach _ ih =>
    obtain ⟨ht, he⟩ := edgeOf_eq_ok hedge
    have hbehind : row ∈ rows.rows := hrows ▸ List.mem_append_right before List.mem_cons_self
    have hfollow : ∀ other ∈ before, Keeps graph.catalog rows.Sourced
        (graph.follow type name edge inner other) fun _ _ => True := fun other hm =>
      follow_keeps (pipeline_keeps inner) ht he (hrows ▸ List.mem_append_left _ hm)
    have hall := (Keeps.forEach rows.sourced_lasting (fun _ _ _ _ h => h) hfollow).frame
      rows.sourced_lasting fun _ h => h
    obtain ⟨hlawful, -, -, hs⟩ := hall.of_run hl hs hbefore
    obtain ⟨hlawful, -, hfirst⟩ := (reach_keeps ht he hbehind).of_run hlawful hs hreach
    exact ih hlawful hfirst
  | @branch rows _ _ _ _ _ _ _ before _ source _ _ hbefore hsource _ ih =>
    obtain ⟨hlawful, -, -⟩ := (appendAll_keeps before rows).of_run hl hs hbefore
    obtain ⟨hlawful, -, hfirst⟩ := (resolveSource_keeps graph source).of_run hlawful trivial hsource
    exact ih hlawful hfirst
  | @appended rows _ _ _ before _ _ hbefore =>
    exact ((appendAll_keeps before rows).of_run hl hs hbefore).2.2

/-- The rows a pipeline gives are the last ones it passes through. -/
lemma passes_of_run {last : Rows} {history calls : History} {operations : List Operation}
    (h : (graph.pipeline rows operations).run.run history = (.ok last, calls)) :
    graph.Passes rows history operations last calls := by
  induction operations generalizing rows history with
  | nil =>
    obtain ⟨⟨rfl⟩, rfl⟩ := Prod.mk.inj h
    exact .here _ history []
  | cons operation rest ih =>
    rw [pipeline, Run.run_bind] at h
    rcases hstep : (graph.step rows operation).run.run history with ⟨e | after, later⟩
    · rw [hstep] at h
      cases h
    · rw [hstep] at h
      exact .step hstep (ih h)

/-- In every run, objects are asked for only by types of the catalog, and edges are followed only
where they are declared and from objects as they were handed out earlier in the run; and while
rows have a type, there is such an object behind every one of them. -/
theorem run_lawful (graph : Graph) (query : Query) :
    (∀ later call earlier, (graph.run query).2 = later ++ call :: earlier →
        call.Allowed graph.catalog earlier) ∧
      ∀ found calls, graph.Intermediate query found calls → ∀ type, found.type = some type →
        ∀ row ∈ found.rows, ∃ origin, row.origin = some origin ∧ calls.HandedOut type origin := by
  have hsource := resolveSource_keeps graph query.source
  have hrows := hsource.bind fun first => pipeline_keeps query.operations first
  refine ⟨(hrows [] History.lawful_nil trivial).1, ?_⟩
  rintro found calls ⟨first, history, hfirst, hpasses⟩
  obtain ⟨hlawful, -, hsourced⟩ := hsource.of_run History.lawful_nil trivial hfirst
  exact hpasses.sourced hlawful hsourced

/-- A user with the first of those friends that are there, under names that say otherwise. -/
def renamedUser : Query :=
  ⟨{ objectType := "User", ids := some [1] },
    [.project ["name"], .rename "name" "id", .edge "friends" [.take 1]]⟩

/-- The edge is followed from the user as it was before its fields were left out and renamed. -/
theorem run_lawful_renamedUser :
    (∃ later earlier answer, (twoFriends.run renamedUser).2
        = later ++ Call.edge "User" (SocialGraph.userItem 1) "friends" answer :: earlier ∧
      (Call.edge "User" (SocialGraph.userItem 1) "friends" answer).Allowed twoFriends.catalog
        earlier) ∧
      ∃ found calls, twoFriends.Intermediate renamedUser found calls ∧
        found.type = some "User" ∧ found.rows.length = 1 ∧
        ∀ row ∈ found.rows, ∃ origin, row.origin = some origin ∧
          calls.HandedOut "User" origin := by
  obtain ⟨hcalls, hrows⟩ := run_lawful twoFriends renamedUser
  -- the friends that are asked for, the edge, and the user it is followed from
  have hrun : (twoFriends.run renamedUser).2
      = [.object "User" 2 (.ok none), .object "User" 1 (.ok (some (SocialGraph.userItem 1))),
          .object "User" 0 (.ok (some (SocialGraph.userItem 0)))]
        ++ .edge "User" (SocialGraph.userItem 1) "friends" (.ok [0, 1, 2])
        :: [.object "User" 1 (.ok (some (SocialGraph.userItem 1)))] := rfl
  have hlast : twoFriends.Intermediate renamedUser _ _ := ⟨_, _, rfl, passes_of_run rfl⟩
  exact ⟨⟨_, _, _, hrun, hcalls _ _ _ hrun⟩, _, _, hlast, rfl, rfl, hrows _ _ hlast _ rfl⟩

end Graph
end ObjectGraph
