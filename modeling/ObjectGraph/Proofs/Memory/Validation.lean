/-
# Queries with and without validation

Validation stands where objects are resolved: of the source of a query, of the queries of a union
and of every edge.  All else a run does is the same with and without it.  So whatever can be
carried through the steps of a run needs to be known only of two ways to resolve objects, and it
then holds of whole queries: that the second succeeds wherever the first one does, or that both
are the same.
-/
import ObjectGraph.Proofs.Memory.Contract
import ObjectGraph.Proofs.Memory.Runs
import ObjectGraph.Proofs.Memory.Soundness

namespace ObjectGraph

open Run (Compatible Simulated)

/-- What comes after a run needs to be known only for what the run may give. -/
lemma Run.Safe.bind_congr {α β : Type} {resolver : Resolver} {holds : α → Prop} {x : Run α}
    {f g : α → Run β} (hx : Safe resolver x holds) (hf : ∀ a, holds a → f a = g a) :
    x >>= f = x >>= g := by
  funext history
  show (x >>= f).run.run history = (x >>= g).run.run history
  have hgiven := hx history
  rw [run_bind, run_bind]
  rcases hr : x.run.run history with ⟨e | a, later⟩
  · rfl
  · rw [hr] at hgiven
    show (f a).run.run later = (g a).run.run later
    rw [hf a hgiven]

namespace Graph

/-! ### Graphs that differ in how objects are resolved -/

/-- Two graphs of the same types with the same resolver, whose ways to resolve objects are
related. -/
structure Alike (related : ∀ α : Type, Run α → Run α → Prop) (graph other : Graph) : Prop where
  catalog : graph.catalog = other.catalog
  resolver : graph.resolver = other.resolver
  objects : ∀ (name : String) (ids : List Int64),
    related (List Row) (graph.resolveObjects name ids) (other.resolveObjects name ids)

section Alike

variable {related : ∀ α : Type, Run α → Run α → Prop} {graph other : Graph}

lemma Alike.source (h : Alike related graph other) (hc : Compatible related) (source : Source) :
    related Rows (graph.resolveSource source) (other.resolveSource source) := by
  have hobjects (ids : List Int64) : related Rows
      (do return ⟨← graph.resolveObjects source.objectType ids, some source.objectType⟩)
      (do return ⟨← other.resolveObjects source.objectType ids, some source.objectType⟩) :=
    hc.bind (h.objects _ ids) fun objects => hc.refl _
  unfold resolveSource
  rw [h.resolver]
  cases source.ids with
  | some ids => exact hc.bind (hc.refl _) hobjects
  | none => exact hc.bind (hc.refl _) hobjects

lemma Alike.edgeOf_eq (h : Alike related graph other) (rows : Rows) (name : String) :
    graph.edgeOf rows name = other.edgeOf rows name := by
  unfold edgeOf
  rw [h.catalog]

lemma Alike.reach (h : Alike related graph other) (hc : Compatible related) (type name : String)
    (edge : Edge) (row : Row) :
    related Rows (graph.reach type name edge row) (other.reach type name edge row) := by
  unfold Graph.reach
  rw [h.resolver]
  cases row.origin with
  | none => exact hc.refl _
  | some origin =>
    exact hc.bind (hc.refl _) fun ids => hc.bind (h.objects _ ids) fun objects => hc.refl _

mutual

lemma Alike.step (h : Alike related graph other) (hc : Compatible related) :
    ∀ (operation : Operation) (rows : Rows),
      related Rows (graph.step rows operation) (other.step rows operation)
  | .edge name inner, rows => by
    rw [step_edge, step_edge, h.edgeOf_eq]
    refine hc.bind (hc.refl _) fun found => ?_
    have hfollow (row : Row) : related (List Item) (graph.follow found.1 name found.2 inner row)
        (other.follow found.1 name found.2 inner row) :=
      hc.bind (h.reach hc found.1 name found.2 row) fun first =>
        hc.bind (h.pipeline hc inner first) fun last => hc.refl _
    exact hc.bind (hc.forEach hfollow rows.rows) fun reached => hc.refl _
  | .union queries, rows => by
    rw [Graph.step, Graph.step]
    exact h.appendAll hc queries rows
  | .project fields, rows | .filter predicate, rows | .take n, rows | .skip n, rows
  | .count, rows | .nest key, rows | .rename old new, rows | .orderBy key direction, rows
  | .groupBy key, rows => hc.refl _

lemma Alike.pipeline (h : Alike related graph other) (hc : Compatible related) :
    ∀ (operations : List Operation) (rows : Rows),
      related Rows (graph.pipeline rows operations) (other.pipeline rows operations)
  | [], rows => hc.refl _
  | operation :: rest, rows => by
    rw [Graph.pipeline, Graph.pipeline]
    exact hc.bind (h.step hc operation rows) fun middle => h.pipeline hc rest middle

lemma Alike.appendAll (h : Alike related graph other) (hc : Compatible related) :
    ∀ (queries : List Query) (rows : Rows),
      related Rows (graph.appendAll rows queries) (other.appendAll rows queries)
  | [], rows => hc.refl _
  | ⟨source, operations⟩ :: rest, rows => by
    rw [Graph.appendAll, Graph.appendAll]
    exact hc.bind (h.source hc source) fun first =>
      hc.bind (h.pipeline hc operations first) fun branch => h.appendAll hc rest _

end

/-- What holds of resolving objects holds of whole queries. -/
lemma Alike.rows (h : Alike related graph other) (hc : Compatible related) (query : Query) :
    related Rows (graph.rows query) (other.rows query) :=
  hc.bind (h.source hc query.source) fun first => h.pipeline hc query.operations first

end Alike

/-! ### Objects with and without a check -/

variable {catalog : Catalog} {resolver : Resolver}

/-- Objects that pass their check are found without it as well. -/
lemma alike_unchecked (catalog : Catalog) (resolver : Resolver) :
    Alike (fun _ => Simulated Eq) ⟨catalog, resolver, true⟩ ⟨catalog, resolver, false⟩ where
  catalog := rfl
  resolver := rfl
  objects name ids := by
    unfold resolveObjects
    cases catalog.type? name with
    | none => exact Simulated.refl _
    | some type =>
      refine Run.compatible_simulated.bind (Simulated.refl _) fun found => Simulated.lift ?_
      intro objects h
      rw [eq_of_checkObjects h]
      exact checkObjects_eq_ok fun hv => absurd hv Bool.false_ne_true

/-- If all objects that the resolver has fit their types, no check finds anything. -/
lemma alike_of_valid
    (hvalid : ∀ name type, catalog.type? name = some type → ∀ history id item,
      resolver.object history name id = .ok (some item) →
        type.validate item.members.entries = .ok ()) :
    Alike (fun _ x y => x = y) ⟨catalog, resolver, true⟩ ⟨catalog, resolver, false⟩ where
  catalog := rfl
  resolver := rfl
  objects name ids := by
    unfold resolveObjects
    cases ht : catalog.type? name with
    | none => rfl
    | some type =>
      -- Objects that the resolver does not have may be of any kind; they cannot be found.
      refine (forEach_askObject_safe resolver name ids).bind_congr fun found hfound => ?_
      have hfits : ∀ entry ∈ ids.zip found, ∀ item, entry.2 = some item →
          type.problem? item.members.entries = none := by
        rintro ⟨id, answer⟩ hentry item rfl
        obtain ⟨asked, history, hanswer⟩ := hfound (some item) (List.of_mem_zip hentry).2
        exact ObjectType.problem?_of_validate (hvalid name type ht history asked item hanswer)
      rw [checkObjects_eq_ok fun _ => hfits, checkObjects_eq_ok fun _ => hfits]

/-- Validation rejects objects and changes nothing else: what a query gives with validation, it
gives without it.  Where all objects of the resolver fit their types, both give the same result or
the same error. -/
theorem execute_validated (catalog : Catalog) (resolver : Resolver) (query : Query) :
    (∀ response, execute ⟨catalog, resolver, true⟩ query = .ok response →
      execute ⟨catalog, resolver, false⟩ query = .ok response) ∧
    ((∀ name type, catalog.type? name = some type → ∀ history id item,
        resolver.object history name id = .ok (some item) →
          type.validate item.members.entries = .ok ()) →
      execute ⟨catalog, resolver, true⟩ query = execute ⟨catalog, resolver, false⟩ query) := by
  constructor
  · intro response hresponse
    have hrows := (alike_unchecked catalog resolver).rows Run.compatible_simulated query
    obtain ⟨found, _, rfl, rfl, hothers⟩ := exists_execute hrows hresponse
    exact hothers
  · intro hvalid
    unfold execute run
    rw [(alike_of_valid hvalid).rows Run.compatible_eq query]

/-- The friends of a user, all users behind them, and what each of them reviewed. -/
def friendsThenAll : Query :=
  ⟨{ objectType := "User", ids := some [2] },
    [.edge "friends" [.take 1], .union [⟨{ objectType := "User" }, [.skip 1]⟩],
     .edge "reviews" [.edge "author" [], .count]]⟩

/-- All objects of the social graph fit their types, so that queries give the same with and without
validation. -/
theorem execute_validated_friendsThenAll :
    (∀ name type, SocialGraph.catalog.type? name = some type → ∀ history id item,
      (SocialGraph.resolver 3).object history name id = .ok (some item) →
        type.validate item.members.entries = .ok ()) ∧
    (∃ response, execute ⟨SocialGraph.catalog, SocialGraph.resolver 3, true⟩ friendsThenAll
        = .ok response ∧ response.size = 3 ∧
      execute ⟨SocialGraph.catalog, SocialGraph.resolver 3, false⟩ friendsThenAll
        = .ok response) ∧
    execute ⟨SocialGraph.catalog, SocialGraph.resolver 3, true⟩ friendsThenAll
      = execute ⟨SocialGraph.catalog, SocialGraph.resolver 3, false⟩ friendsThenAll := by
  have hvalid : ∀ name type, SocialGraph.catalog.type? name = some type → ∀ history id item,
      (SocialGraph.resolver 3).object history name id = .ok (some item) →
        type.validate item.members.entries = .ok () := by
    intro name type ht history id item hitem
    change SocialGraph.resolveObject 3 name id = .ok (some item) at hitem
    unfold SocialGraph.resolveObject at hitem
    split at hitem
    · obtain rfl : SocialGraph.user = type := Option.some.inj ht
      split at hitem
      · obtain rfl := Option.some.inj (Except.ok.inj hitem)
        rfl
      · cases hitem
    · obtain rfl : SocialGraph.review = type := Option.some.inj ht
      split at hitem
      · obtain rfl := Option.some.inj (Except.ok.inj hitem)
        rfl
      · cases hitem
    · cases hitem
  have hsize : (execute ⟨SocialGraph.catalog, SocialGraph.resolver 3, true⟩
      friendsThenAll).toOption.map Response.size = some 3 := by decide +kernel
  obtain ⟨hchecked, hsame⟩ := execute_validated SocialGraph.catalog (SocialGraph.resolver 3)
    friendsThenAll
  refine ⟨hvalid, ?_, hsame hvalid⟩
  cases h : execute ⟨SocialGraph.catalog, SocialGraph.resolver 3, true⟩ friendsThenAll with
  | error e =>
    rw [h] at hsize
    cases hsize
  | ok response =>
    rw [h] at hsize
    exact ⟨response, rfl, Option.some.inj hsize, hchecked response h⟩

end Graph
end ObjectGraph
