/-
# Operations on both sides

While a query is compiled, its draft shows a listing; while it runs in memory, there are rows.  The
two agree when they are the same objects in the same order, and every operation that follows no
edge, gathers nothing and leaves names alone keeps them so, as long as it names only columns that
are still there.
-/
import ObjectGraph.Proofs.Compile.Folding
import ObjectGraph.Proofs.Memory.Conditions
import ObjectGraph.Proofs.Memory.Representation
import ObjectGraph.Proofs.Memory.Runs

namespace ObjectGraph

open Compile (AliasCounts Draft Shows)

variable {δ : Type} {D : Domain δ} {db : Database δ}

/-! ### Runs that return a value -/

namespace Run

variable {α β : Type} {x : Run α} {a : α} {b : β}

/-- After any calls, a run gives a certain result. -/
def Returns (x : Run α) (a : α) : Prop := ∀ history : History, (x.run.run history).1 = .ok a

lemma Returns.pure (a : α) : Returns (Pure.pure a) a := Gives.pure a

lemma Returns.bind {f : α → Run β} (hx : Returns x a) (hf : Returns (f a) b) :
    Returns (x >>= f) b := by
  refine Gives.bind (g := fun _ => .ok b) hx fun found hfound => ?_
  obtain rfl := Except.ok.inj hfound
  exact hf

lemma Returns.lift {e : Except RunError α} (he : e = .ok a) : Returns (liftM e) a :=
  he ▸ Gives.lift e

lemma Returns.ask {call : Except String α → Call} {answer : History → Except String α}
    (h : ∀ history, answer history = .ok a) : Returns (ask call answer) a := Gives.ask h

lemma Returns.forEach {γ : Type} {f : α → Run β} {l : List γ} {g : γ → α} {found : γ → β}
    (hf : ∀ c ∈ l, Returns (f (g c)) (found c)) : Returns (forEach f (l.map g)) (l.map found) := by
  induction l with
  | nil => exact Returns.pure _
  | cons c rest ih =>
    obtain ⟨hc, hrest⟩ := List.forall_mem_cons.1 hf
    exact hc.bind ((ih hrest).bind (Returns.pure _))

end Run

/-! ### Predicates without null -/

namespace Predicate

mutual

/-- No list of values has null among them. -/
def NullFree : Predicate → Prop
  | all parts | any parts => partsNullFree parts
  | negation part => part.NullFree
  | oneOf _ values => .null ∉ values
  | comparison _ _ _ | isNull _ => True

/-- Whether all parts are free of null. -/
def partsNullFree : List Predicate → Prop
  | [] => True
  | part :: rest => part.NullFree ∧ partsNullFree rest

end

mutual

/-- Null cannot upset a predicate without null on an object that has all values it is asked for. -/
lemma settled_of_nullFree {item : Item} : ∀ {p : Predicate} (negated : Bool),
    (∀ test ∈ p.tests, isNothing (item.valueOf test.1) = false) → p.NullFree →
    p.Settled item negated
  | all parts, negated, hv, hn | any parts, negated, hv, hn => by
    rw [tests] at hv
    rw [NullFree] at hn
    rw [Settled]
    exact partsSettled_of_nullFree negated hv hn
  | negation part, negated, hv, hn => by
    rw [tests] at hv
    rw [NullFree] at hn
    rw [Settled]
    exact settled_of_nullFree (!negated) hv hn
  | comparison field operator value, negated, hv, _ => by
    rw [Settled]
    exact fun _ => .inr (hv (field, [value]) (by simp [tests]))
  | oneOf field values, negated, hv, hn => by
    have hvalue := hv (field, values) (by simp [tests])
    rw [NullFree] at hn
    rw [Settled]
    split
    · exact .inr ⟨hvalue, hn⟩
    · exact .inl hvalue
  | isNull field, negated, _, _ => by
    rw [Settled]
    trivial

lemma partsSettled_of_nullFree {item : Item} : ∀ {parts : List Predicate} (negated : Bool),
    (∀ test ∈ partTests parts, isNothing (item.valueOf test.1) = false) → partsNullFree parts →
    partsSettled item negated parts
  | [], negated, _, _ => by
    rw [partsSettled]
    trivial
  | part :: rest, negated, hv, hn => by
    simp only [partTests, List.forall_mem_append] at hv
    rw [partsNullFree] at hn
    rw [partsSettled]
    exact ⟨settled_of_nullFree negated hv.1 hn.1, partsSettled_of_nullFree negated hv.2 hn.2⟩

end

mutual

lemma has_of_within {header : Header} : ∀ {p : Predicate}, p.Within header →
    ∀ test ∈ p.tests, header.Has test.1
  | all parts, hw | any parts, hw => by
    rw [Within] at hw
    rw [tests]
    exact has_of_partsWithin hw
  | negation part, hw => by
    rw [Within] at hw
    rw [tests]
    exact has_of_within hw
  | comparison _ _ _, hw | oneOf _ _, hw | isNull _, hw => by
    rw [Within] at hw
    rw [tests]
    exact List.forall_mem_singleton.2 hw

lemma has_of_partsWithin {header : Header} : ∀ {parts : List Predicate},
    partsWithin header parts → ∀ test ∈ partTests parts, header.Has test.1
  | [], _ => by simp [partTests]
  | part :: rest, hw => by
    rw [partsWithin] at hw
    simp only [partTests, List.forall_mem_append]
    exact ⟨has_of_within hw.1, has_of_partsWithin hw.2⟩

end

end Predicate

/-! ### Rows of a listing and rows in memory -/

lemma Header.Plain.pick {header picked : Header} (hp : header.Plain) {fields : List String}
    (hn : picked.names.Nodup) (hs : picked ⊆ header) : (header.pick picked fields).Plain := by
  induction fields generalizing picked with
  | nil => exact hp.of_subset hn hs
  | cons reference rest ih =>
    simp only [Header.pick]
    split
    · rename_i column hc
      split
      · exact ih hn hs
      · rename_i hname
        exact ih (Header.nodup_append hn hname)
          (List.append_subset.2 ⟨hs, by simpa using (Header.column?_eq_some hc).1⟩)
    · exact ih hn hs

/-- Rows in memory and rows of a listing that are the same objects in the same order; there are not
too many to be counted. -/
structure Agrees (D : Domain δ) (listing : Listing δ) (rows : Rows) : Prop where
  header : listing.header.Plain
  rows : List.Forall₂ (fun record row => Represents D listing.header record row.item)
    listing.rows rows.rows
  size : listing.rows.length < 0x8000000000000000

/-- A domain without strings that have to be written canonically. -/
abbrev Domain.Usual (D : Domain δ) : Prop := D.Standard fun _ _ => False

lemma Domain.Standard.usual {canonical : ScalarType → String → Prop} (h : D.Standard canonical) :
    D.Usual :=
  { h with encoded := fun _ _ _ _ _ hs => hs.elim }

namespace Agrees

variable {listing : Listing δ} {rows : Rows} {draft base result : Draft} {catalog : Catalog}
  {counts last : AliasCounts} {around : Sql.RowEnvironment δ}

lemma take (h : Agrees D listing rows) (n : UInt32) :
    Agrees D (listing.take n) (rows.apply (.take n)) :=
  ⟨h.header, List.forall₂_take _ h.rows, (List.length_take_le' ..).trans_lt h.size⟩

lemma skip (h : Agrees D listing rows) (n : UInt32) :
    Agrees D (listing.skip n) (rows.apply (.skip n)) := by
  refine ⟨h.header, List.forall₂_drop _ h.rows, ?_⟩
  simp only [Listing.skip, List.length_drop]
  exact (Nat.sub_le ..).trans_lt h.size

lemma project (h : Agrees D listing rows) {fields : List String}
    (hf : ∀ field ∈ fields, listing.header.Has field) :
    Agrees D (listing.project fields) (rows.apply (.project fields)) := by
  refine ⟨h.header.pick List.nodup_nil (List.nil_subset _), ?_, ?_⟩
  · simp only [Listing.project, Rows.apply, Rows.mapItems, List.forall₂_map_left_iff,
      List.forall₂_map_right_iff]
    exact h.rows.imp fun record row hr => hr.project h.header hf
  · simp only [Listing.project, List.length_map]
    exact h.size

/-- Rows are in the order of the items that are the same objects. -/
lemma order_eq (hD : D.Sorts) (h : Agrees D listing rows) {key : String} (direction : Direction)
    (hk : listing.header.Has key) {a b : Record δ} {x y : Row}
    (ha : Represents D listing.header a x.item) (hb : Represents D listing.header b y.item) :
    listing.order D key direction a b = Rows.rowOrder (unqualified key) direction x y := by
  obtain ⟨column, hc⟩ := Option.isSome_iff_exists.1 hk
  obtain ⟨type, v, ht, hv, hx, hacell⟩ := ha.value h.header hc
  obtain ⟨type', w, ht', hw, hy, hbcell⟩ := hb.value h.header hc
  obtain rfl : type = type' := Option.some.inj (ht.symm.trans ht')
  have horder : D.order (v.cell D) (w.cell D) = x.item.orderBy (unqualified key) y.item := by
    rw [hv.order_cell hD hw, ← hx, ← hy]
    rfl
  have hcell (record : Record δ) : listing.header.cell record key = record.cell column.1 := by
    rw [Header.cell, hc, Option.bind_some]
  rw [Listing.order, hcell, hcell, hacell, hbcell]
  cases direction with
  | ascending => exact horder
  | descending =>
    have hswap : D.order (w.cell D) (v.cell D) = (D.order (v.cell D) (w.cell D)).swap :=
      Std.OrientedCmp.eq_swap
    rw [Domain.directed, hswap, horder]
    rfl

lemma sortBy (hD : D.Sorts) (h : Agrees D listing rows) {key : String} (direction : Direction)
    (hk : listing.header.Has key) :
    Agrees D (listing.sortBy D key direction) (rows.apply (.orderBy key direction)) := by
  refine ⟨h.header, ?_, ?_⟩
  · have horder (a b : Record δ) (x y : Row) (ha : Represents D listing.header a x.item)
        (hb : Represents D listing.header b y.item) :=
      h.order_eq hD direction hk ha hb
    exact Stable.forall₂_sort horder h.rows
  · simp only [Listing.sortBy, Stable.length_sort]
    exact h.size

lemma count (h : Agrees D listing rows) : Agrees D (listing.count D) (rows.apply .count) := by
  have hsize := h.size
  have hlength : listing.rows.length = rows.rows.length := h.rows.length_eq
  have hfits : (Json.int64? rows.rows.length).isSome = true :=
    Json.isSome_int64? (by omega) (by omega)
  refine ⟨⟨by simp [Listing.count, Header.names], by simp [Listing.count, Header.names, idKey,
    typeKey]⟩, ?_, by simp [Listing.count]⟩
  simp only [Listing.count, Rows.apply, Rows.aggregated, List.map_singleton, hlength]
  exact .cons (Represents.counted hfits) .nil

/-- In the environment of a row a draft sees the values of the item that is the same object. -/
lemma sees (h : Agrees D listing rows) (hs : Shows D db around draft listing)
    {environment : Sql.RowEnvironment δ} {item : Item}
    (hr : Represents D listing.header (Draft.record D db draft.columns ⟨environment, []⟩) item)
    {test : String × List Literal} (hk : listing.header.Has test.1) :
    Draft.Sees D db (fun _ _ => False) catalog draft environment item test := by
  intro target ht
  obtain ⟨column, hc⟩ := Option.isSome_iff_exists.1 hk
  obtain ⟨type, v, htype, hv, hvalue, hcell⟩ := hr.value h.header hc
  obtain ⟨heval, hfound⟩ := Compile.eval_column hs environment hk ht
  rw [Header.cell, hc, Option.bind_some, hcell] at heval
  rw [Header.type?, hc, Option.bind_some] at hfound
  refine ⟨type, hfound.trans htype, fun he => ?_, ?_⟩
  · rw [hv.isStringEncoded_eq_false] at he
    cases he
  · rw [hvalue, heval]
    exact hv.held _

/-- A predicate holds of a row if and only if it holds of the item that is the same object. -/
lemma truth_iff_evaluate (hD : D.Usual) (h : Agrees D listing rows)
    (hs : Shows D db around draft listing) {p : Predicate} (hw : p.Within listing.header)
    (hn : p.NullFree) (hf : (draft.filter catalog p).run counts = .ok (result, last))
    {record : Record δ} (hm : record ∈ listing.rows) {item : Item}
    (hr : Represents D listing.header record item) :
    p.truth D listing.header record = some true ↔ p.evaluate item = true := by
  -- The condition is compiled over the wrapped draft, which has no limits and shows the same rows.
  obtain ⟨base, e, hwraps, he, -⟩ := Draft.filter_ok hf
  have hbase := hs.wraps hwraps
  obtain ⟨hl, ho, hopen⟩ := hwraps.opened
  rw [hbase.rows_whole hl ho hopen] at hm
  obtain ⟨environment, -, rfl⟩ := List.mem_map.1 hm
  have hhas := Predicate.has_of_within hw
  have hread : p.truth D listing.header (Draft.record D db base.columns ⟨environment, []⟩)
      = p.reading item :=
    (Compile.truth_condition hbase environment hw he).symm.trans
      (Compile.reading_condition hD (fun test ht => h.sees hbase hr (hhas test ht)) he)
  have hsettled : p.Settled item false := by
    refine Predicate.settled_of_nullFree false (fun test ht => ?_) hn
    obtain ⟨column, hc⟩ := Option.isSome_iff_exists.1 (hhas test ht)
    obtain ⟨_, v, -, hv, hvalue, -⟩ := hr.value h.header hc
    rw [hvalue]
    exact Held.isNothing_some hv.ne_null
  rw [hread]
  exact ⟨fun ht => (p.allows_reading item).eq ht, p.reading_of_settled item hsettled⟩

lemma filter (hD : D.Usual) (h : Agrees D listing rows) (hs : Shows D db around draft listing)
    {p : Predicate} (hw : p.Within listing.header) (hn : p.NullFree)
    (hf : (draft.filter catalog p).run counts = .ok (result, last)) :
    Agrees D (listing.filter D p) (rows.apply (.filter p)) := by
  have hrows : List.Forall₂ (fun record row => record ∈ listing.rows ∧
      Represents D listing.header record row.item) listing.rows rows.rows :=
    (List.forall₂_and_left _ _).2 ⟨fun _ hm => hm, h.rows⟩
  refine ⟨h.header, ?_, (List.length_filter_le ..).trans_lt h.size⟩
  refine (List.rel_filter (fun record row hr => ?_) hrows).imp fun _ _ hr => hr.2
  exact beq_iff_eq.trans (h.truth_iff_evaluate hD hs hw hn hf hr.1 hr.2)

end Agrees

/-! ### Pipelines -/

/-- The operations that follow no edge, gather nothing and leave names alone, without null among
the values of a list. -/
def Operation.Plain : Operation → Prop
  | .project _ | .orderBy _ _ | .take _ | .skip _ | .count => True
  | .filter p => p.NullFree
  | .nest _ | .rename _ _ | .groupBy _ | .edge _ _ | .union _ => False

/-- How many rows an operation skips. -/
def Operation.skips : Operation → Nat
  | .skip n => n.toNat
  | _ => 0

/-- How many rows operations skip together. -/
def totalSkips : List Operation → Nat
  | [] => 0
  | step :: rest => step.skips + totalSkips rest

section Pipelines

variable {listing : Listing δ} {rows : Rows} {draft result : Draft} {counts last : AliasCounts}
  {around : Sql.RowEnvironment δ} {graph : Graph} {catalog : Catalog}

/-- Skips that fit together fit run by run. -/
lemma stepsSkipsFit_of_sum {passed : Operation → Bool} {steps : List Operation} {sum : Nat}
    (hp : ∀ step ∈ steps, step.Plain) (h : sum + totalSkips steps < UInt32.size) :
    stepsSkipsFit passed sum steps := by
  induction steps generalizing sum with
  | nil =>
    rw [stepsSkipsFit]
    trivial
  | cons step rest ih =>
    obtain ⟨hstep, hrest⟩ := List.forall_mem_cons.1 hp
    rw [totalSkips] at h
    have hskipped : step.skipped passed sum ≤ sum + step.skips := by
      unfold Operation.skipped Operation.skips
      split
      · exact Nat.le_refl _
      · split <;> omega
    have hfit : step.SkipsFit passed := by
      cases step <;> first | (cases hstep; done) | simp only [Operation.SkipsFit]
    rw [stepsSkipsFit]
    exact ⟨by omega, hfit, ih hrest (by omega)⟩

/-- One operation on both sides. -/
lemma Agrees.operation (hD : D.Usual) (hsorts : D.Sorts) (h : Agrees D listing rows)
    (hs : Shows D db around draft listing) {step : Operation} (hp : step.Plain)
    (hc : step.OnColumns catalog listing.header)
    (ho : (Compile.operation catalog draft step).run counts = .ok (result, last)) :
    Agrees D (Listing.apply D db catalog step listing) (rows.apply step) := by
  cases step with
  | project fields =>
    simp only [Operation.OnColumns] at hc
    rw [Listing.apply]
    exact h.project hc.2
  | filter p =>
    simp only [Operation.OnColumns] at hc
    simp only [Compile.operation] at ho
    rw [Listing.apply]
    exact h.filter hD hs hc hp ho
  | orderBy key direction =>
    simp only [Operation.OnColumns] at hc
    rw [Listing.apply]
    exact h.sortBy hsorts direction hc
  | take n =>
    rw [Listing.apply]
    exact h.take n
  | skip n =>
    rw [Listing.apply]
    exact h.skip n
  | count =>
    rw [Listing.apply]
    exact h.count
  | nest | rename | groupBy | edge | union => cases hp

lemma Graph.step_returns {step : Operation} (hp : step.Plain) :
    Run.Returns (graph.step rows step) (rows.apply step) := by
  cases step with
  | project | filter | orderBy | take | skip | count =>
    simp only [Graph.step]
    exact Run.Returns.pure _
  | nest | rename | groupBy | edge | union => cases hp

lemma Graph.pipeline_returns {steps : List Operation} (hp : ∀ step ∈ steps, step.Plain) :
    Run.Returns (graph.pipeline rows steps) (steps.foldl Rows.apply rows) := by
  induction steps generalizing rows with
  | nil =>
    simp only [Graph.pipeline]
    exact Run.Returns.pure _
  | cons step rest ih =>
    obtain ⟨hstep, hrest⟩ := List.forall_mem_cons.1 hp
    simp only [Graph.pipeline]
    exact (Graph.step_returns hstep).bind (ih hrest)

/-- All operations on both sides. -/
lemma Agrees.pipeline (hD : D.Usual) (hsorts : D.Sorts) {steps : List Operation}
    (h : Agrees D listing rows) (hs : Shows D db around draft listing)
    (hp : ∀ step ∈ steps, step.Plain) (hc : stepsOnColumns catalog listing.header steps)
    (hf : stepsSkipsFit Operation.isProjection draft.pending steps)
    (hrun : (Compile.pipeline catalog draft steps).run counts = .ok (result, last)) :
    Agrees D (Listing.applyAll D db catalog steps listing) (steps.foldl Rows.apply rows) := by
  induction steps generalizing listing rows draft counts with
  | nil =>
    rw [Listing.applyAll]
    exact h
  | cons step rest ih =>
    obtain ⟨next, between, ho, hrun⟩ := Compile.pipeline_cons_ok hrun
    obtain ⟨hstep, hrest⟩ := List.forall_mem_cons.1 hp
    simp only [stepsOnColumns] at hc
    simp only [stepsSkipsFit] at hf
    rw [Listing.applyAll, List.foldl_cons]
    refine ih (h.operation hD hsorts hs hstep hc.1 ho)
      (Compile.operation_shows step hs hc.1 hf.1 hf.2.1 ho) hrest ?_ ?_ hrun
    · rw [Compile.header_apply]
      exact hc.2
    · rw [Compile.operation_pending hc.1 hf.1 ho]
      exact hf.2.2

end Pipelines

end ObjectGraph
