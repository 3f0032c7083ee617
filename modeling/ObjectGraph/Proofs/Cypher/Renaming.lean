/-
# What references mean behind renames

A rename changes what a column is called and leaves the property that it reads.  But conditions and
projections look for a field among those of the type, as if nothing had been renamed; only a sort
key asks first whether a column was given the name.  So a reference means what the output of its
name holds exactly if the output is called after the field that it holds, and a key that is the
name of a column means what the column reads that is given the name in the end.

The outputs are followed through the operations on their own, and the invariant of a draft is that
its columns are theirs.
-/
import ObjectGraph.Proofs.Cypher.Walks

namespace ObjectGraph

mutual

/-- The references of a predicate, from left to right. -/
def Predicate.references : Predicate → List String
  | .all parts | .any parts => partReferences parts
  | .negation part => part.references
  | .comparison field _ _ | .oneOf field _ | .isNull field => [field]

/-- The references in all parts, in order. -/
def partReferences : List Predicate → List String
  | [] => []
  | part :: rest => part.references ++ partReferences rest

end

namespace Compile.TextCondition

variable {σ : Type} {means : String → σ → Prop} {listed : List Literal → Prop}

mutual

/-- Where every choice is written as such, a condition speaks of what the references of its
predicate mean, one by one. -/
lemma Renders.references (hl : listed []) : ∀ {predicate : Predicate} {c : TextCondition σ},
    Renders means listed predicate c → List.Forall₂ means predicate.references c.subjects
  | _, _, .all h | _, _, .any h => part_references hl h
  | _, _, .negation h => h.references hl
  | _, _, .comparison _ h _ | _, _, .equalsNull h | _, _, .differsFromNull h | _, _, .oneOf h _
  | _, _, .isNull h => .cons h .nil
  | _, _, .never _ hnone => absurd hl hnone

lemma part_references (hl : listed []) : ∀ {parts : List Predicate} {cs : List (TextCondition σ)},
    List.Forall₂ (Renders means listed) parts cs →
    List.Forall₂ means (partReferences parts) (partSubjects cs)
  | _, _, .nil => .nil
  | _, _, .cons h hs => List.rel_append (h.references hl) (part_references hl hs)

end

end Compile.TextCondition

/-- The property that a reference means, which is called like a field of the type. -/
def ObjectType.propertyOf? (type : ObjectType) (reference : String) : Option String :=
  let name := unqualified reference
  let name := if name = "id" ∧ ¬ type.fields.contains "id" then idKey else name
  (type.lookupField name).map Prod.fst

namespace Operation

/-- Whether an operation filters. -/
def isFilter : Operation → Bool
  | filter _ => true
  | _ => false

/-- Whether an operation sorts. -/
def isSort : Operation → Bool
  | orderBy _ _ => true
  | _ => false

/-- Whether an operation renames a column. -/
def isRename : Operation → Bool
  | rename _ _ => true
  | _ => false

/-- Whether an operation chooses, renames, filters or sorts and does nothing else. -/
def arranges (operation : Operation) : Bool :=
  operation.isProjection || operation.isFilter || operation.isSort || operation.isRename

lemma isEdge_of_arranges {operation : Operation} (h : operation.arranges = true) :
    operation.isEdge = false := by
  cases operation with
  | edge => cases h
  | project | filter | take | skip | count | nest | rename | orderBy | groupBy | union => rfl

end Operation

namespace Cypher

open Compile (TextCondition)

variable {naming : String → String} {catalog : Catalog} {type : ObjectType}
  {draft result : Draft} {operation : Operation} {operations more : List Operation}

/-! ### Outputs -/

/-- A field of the results. -/
structure Output where
  name : String
  /-- The field of the type whose values it holds. -/
  holds : String
  /-- The field of the type that its column reads. -/
  reads : String
  /-- Whether it was given its name since columns were chosen. -/
  renamed : Bool := false
deriving DecidableEq

namespace Output

/-- The outputs for references, given what they hold unless it is what the references mean. -/
def choose (type : ObjectType) (holds : String → Option String) (references : List String) :
    List Output :=
  references.filterMap fun reference => (type.propertyOf? reference).map fun field =>
    { name := unqualified reference, holds := (holds reference).getD field, reads := field }

/-- The fields of a type, each of which holds itself. -/
def ofType (type : ObjectType) : List Output :=
  choose type some type.fields.keys

lemma choose_cons {holds : String → Option String} {reference field : String}
    {rest : List String} (hm : type.propertyOf? reference = some field) :
    choose type holds (reference :: rest) =
      { name := unqualified reference, holds := (holds reference).getD field, reads := field }
        :: choose type holds rest := by
  rw [choose, List.filterMap_cons, hm]
  rfl

/-- What the first output of a name holds. -/
def held? (outputs : List Output) (reference : String) : Option String :=
  (outputs.find? (·.name = unqualified reference)).map (·.holds)

/-- Rename the first output of a name. -/
def rename (old new : String) : List Output → List Output
  | [] => []
  | output :: rest =>
    if output.name = old then { output with name := new, renamed := true } :: rest
    else output :: rename old new rest

/-- What is read for the first output that was given a name. -/
def given? (outputs : List Output) (reference : String) : Option String :=
  (outputs.find? fun output => output.renamed && output.name = unqualified reference).map (·.reads)

/-- The outputs behind an operation. -/
def after (type : ObjectType) (outputs : List Output) : Operation → List Output
  | .project references => choose type (held? outputs) references
  | .rename old new => rename (unqualified old) (unqualified new) outputs
  | _ => outputs

/-- The outputs behind operations on the objects of a type. -/
def behind (type : ObjectType) (operations : List Operation) : List Output :=
  operations.foldl (after type) (ofType type)

/-- The column of an output. -/
def item (node : String) (output : Output) : ReturnItem where
  name := output.name
  value := .property ⟨node, output.reads⟩
  givenName := if output.renamed then some output.name else none

end Output

/-! ### What clauses mean -/

/-- What is read for a sort target: a name stands for the first column that is given it. -/
def Part.sortedBy? (part : Part) : SortTarget → Option Property
  | .property property => some property
  | .named name => (part.columns.find? (·.givenName = some name)).bind fun item =>
    match item.value with
    | .property property => some property
    | _ => none

/-- Whether a property is what the output of a reference's name holds exactly if the reference
means the field that the output holds. -/
def Property.Meant (type : ObjectType) (outputs : List Output) (node reference : String)
    (property : Property) : Prop :=
  ∀ held ∈ Output.held? outputs reference,
    property = ⟨node, held⟩ ↔ type.propertyOf? reference = some held

/-- What the references of an operation that comes between others mean in a part that begins with
so many conditions on identities. -/
def Part.Reads (type : ObjectType) (part : Part) (restrictions : Nat)
    (before : List Operation) (operation : Operation) (behind : List Operation) : Prop :=
  let node := part.path.last.name
  let outputs := Output.behind type before
  match operation with
  | .filter predicate =>
    ∃ c, part.conditions[restrictions + before.countP Operation.isFilter]? = some c ∧
      List.Forall₂ (Property.Meant type outputs node) predicate.references c.subjects
  | .project references => behind.countP Operation.isProjection = 0 →
    List.Forall₂ (fun reference value => ∃ property : Property, value = Value.property property ∧
      property.Meant type outputs node reference) references (part.columns.map ReturnItem.value)
  | .orderBy reference _ =>
    ∃ key, part.orderBy[behind.countP Operation.isSort]? = some key ∧
      ∀ held ∈ Output.held? outputs reference,
        part.sortedBy? key.target = some ⟨node, held⟩ ↔
          if (Output.given? outputs reference).isSome then
            Output.given? (Output.behind type (before ++ operation :: behind)) reference
              = some held
          else type.propertyOf? (unqualified reference) = some held
  | _ => True

/-! ### References -/

/-- A draft whose columns are those of outputs, all of which hold fields of one type. -/
structure Draft.Follows (catalog : Catalog) (type : ObjectType) (outputs : List Output)
    (draft : Draft) : Prop where
  found : catalog.type? draft.typeName = some type
  columns : draft.part.returns = none ∧ outputs = Output.ofType type ∨
    draft.part.returns = some (outputs.map (Output.item draft.node))

namespace Draft.Follows

variable {outputs : List Output} {reference : String} {property : Property}

lemma resolve_ok (h : draft.Follows catalog type outputs)
    (hr : draft.resolve catalog reference = .ok property) :
    type.propertyOf? reference = some property.name ∧ property.node = draft.node := by
  obtain ⟨found, hfound, hr⟩ := Compile.bind_eq_ok.1 hr
  obtain rfl := Option.some.inj (h.found.symm.trans (Compile.requireType_ok.1 hfound))
  cases hlookup : type.lookupField
      (if unqualified reference = "id" ∧ ¬ type.fields.contains "id" then idKey
        else unqualified reference) with
  | none =>
    simp only [hlookup] at hr
    cases hr
  | some read =>
    simp only [hlookup] at hr
    obtain rfl := Compile.pure_eq_ok.1 hr
    refine ⟨?_, rfl⟩
    simp only [ObjectType.propertyOf?, hlookup]
    rfl

lemma meant (h : draft.Follows catalog type outputs)
    (hr : draft.resolve catalog reference = .ok property) (others : List Output) :
    property.Meant type others draft.node reference := by
  obtain ⟨hmeant, hnode⟩ := h.resolve_ok hr
  intro held _
  obtain ⟨node, name⟩ := property
  obtain rfl := hnode
  rw [hmeant, Property.mk.injEq, Option.some.injEq]
  exact and_iff_right rfl

/-- The columns for references are those of the outputs for them, and read what these mean. -/
lemma propertyItems_ok (h : draft.Follows catalog type outputs) {references : List String}
    {items : List ReturnItem} (hi : draft.propertyItems catalog references = .ok items)
    (holds : String → Option String) (others : List Output) :
    items = (Output.choose type holds references).map (Output.item draft.node) ∧
      List.Forall₂ (fun reference value => ∃ property : Property,
        value = Value.property property ∧ property.Meant type others draft.node reference)
        references (items.map ReturnItem.value) := by
  replace hi := forall₂_propertyItems hi
  induction hi with
  | nil => exact ⟨rfl, .nil⟩
  | cons hitem _ ih =>
    obtain ⟨⟨node, name⟩, hproperty, rfl⟩ := hitem
    obtain ⟨hmeant, rfl⟩ := h.resolve_ok hproperty
    obtain ⟨rfl, hvalues⟩ := ih
    refine ⟨?_, .cons ⟨_, rfl, h.meant hproperty others⟩ hvalues⟩
    rw [Output.choose_cons hmeant]
    rfl

lemma returnItems_ok (h : draft.Follows catalog type outputs) {items : List ReturnItem}
    (hi : draft.returnItems catalog = .ok items) : items =
    outputs.map (Output.item draft.node) := by
  rw [Draft.returnItems] at hi
  rcases h.columns with ⟨hreturns, rfl⟩ | hreturns
  · rw [hreturns] at hi
    obtain ⟨found, hfound, hi⟩ := Compile.bind_eq_ok.1 hi
    obtain rfl := Option.some.inj (h.found.symm.trans (Compile.requireType_ok.1 hfound))
    exact (h.propertyItems_ok hi _ []).1
  · rw [hreturns] at hi
    exact (Except.ok.inj hi).symm

/-- The subjects of a condition are what the references of its predicate mean. -/
lemma condition_ok (h : draft.Follows catalog type outputs) (others : List Output)
    {predicate : Predicate} {c : TextCondition Property}
    (hc : draft.condition catalog predicate = .ok c) :
    List.Forall₂ (Property.Meant type others draft.node) predicate.references c.subjects :=
  ((renders_condition hc).references trivial).imp fun _ _ hr => h.meant hr others

/-! ### Given names -/

end Draft.Follows

namespace Output

variable {outputs : List Output} {old new reference node : String}

lemma renameItem_ok {renamed : List ReturnItem}
    (h : Draft.renameItem old new (outputs.map (item node)) = some renamed) :
    renamed = (rename old new outputs).map (item node) := by
  induction outputs generalizing renamed with
  | nil => cases h
  | cons output rest ih =>
    rw [List.map_cons, Draft.renameItem] at h
    rw [rename]
    split at h
    · rename_i hname
      obtain rfl := Option.some.inj h
      have hold : output.name = old := hname
      rw [if_pos hold]
      rfl
    · rename_i hname
      obtain ⟨others, hothers, rfl⟩ := Option.map_eq_some_iff.1 h
      have hold : ¬output.name = old := hname
      rw [if_neg hold, ih hothers]
      rfl

/-- No field of a type is called otherwise. -/
lemma given?_ofType : given? (ofType type) reference = none := by
  rw [given?, Option.map_eq_none_iff, List.find?_eq_none]
  intro output hm
  obtain ⟨field, -, hfield⟩ := List.mem_filterMap.1 hm
  obtain ⟨read, -, rfl⟩ := Option.map_eq_some_iff.1 hfield
  exact Bool.false_ne_true

lemma find?_givenName :
    (outputs.map (item node)).find? (·.givenName = some (unqualified reference))
      = (outputs.find? fun output =>
          output.renamed && output.name = unqualified reference).map (item node) := by
  rw [List.find?_map]
  refine congrArg (Option.map _) (congrArg (fun p => List.find? p outputs) ?_)
  funext output
  cases hr : output.renamed <;> simp [item, hr]

end Output

namespace Draft.Follows

variable {outputs : List Output} {reference : String}

/-- A name stands for what is read for the output that was given it. -/
lemma sortedBy?_named (h : draft.Follows catalog type outputs) :
    draft.part.sortedBy? (.named (unqualified reference))
      = (Output.given? outputs reference).map (⟨draft.node, ·⟩) := by
  rcases h.columns with ⟨hreturns, rfl⟩ | hreturns
  · rw [Part.sortedBy?, Part.columns, hreturns, Output.given?_ofType]
    rfl
  · rw [Part.sortedBy?, Part.columns, hreturns, Option.getD_some, Output.find?_givenName,
      Output.given?]
    cases outputs.find? _ <;> rfl

lemma hasGivenName_eq (h : draft.Follows catalog type outputs) :
    draft.hasGivenName (unqualified reference) = (Output.given? outputs reference).isSome := by
  rw [Draft.hasGivenName]
  rcases h.columns with ⟨hreturns, rfl⟩ | hreturns
  · rw [hreturns, Output.given?_ofType]
    rfl
  · rw [hreturns, Option.getD_some, Output.given?, Option.isSome_map, List.isSome_find?,
      List.any_map]
    refine congrArg (fun p => List.any outputs p) (funext fun output => ?_)
    cases hr : output.renamed <;> simp [Output.item, hr, Bool.beq_eq_decide_eq]

/-- A name that was given is the target, and otherwise the property that is meant. -/
lemma sortTarget_ok (h : draft.Follows catalog type outputs) {target : SortTarget}
    (ht : draft.sortTarget catalog (unqualified reference) = .ok target) :
    (Output.given? outputs reference).isSome = true ∧ target = .named (unqualified reference) ∨
      ¬(Output.given? outputs reference).isSome = true ∧
        ∃ field, type.propertyOf? (unqualified reference) = some field ∧
          target = .property ⟨draft.node, field⟩ := by
  rw [Draft.sortTarget, h.hasGivenName_eq] at ht
  split at ht
  · rename_i hgiven
    exact .inl ⟨hgiven, (Except.ok.inj ht).symm⟩
  · rename_i hnone
    split at ht
    · cases ht
    · obtain ⟨⟨node, field⟩, hproperty, ht⟩ := Compile.bind_eq_ok.1 ht
      obtain ⟨hmeant, rfl⟩ := h.resolve_ok hproperty
      exact .inr ⟨hnone, field, hmeant, (Compile.pure_eq_ok.1 ht).symm⟩

end Draft.Follows

/-! ### Operations -/

/-- What operations that only choose, rename, filter and sort leave of a draft, and how much they
add to it. -/
structure Draft.Grows (operations : List Operation) (draft result : Draft) : Prop where
  others : result.others = draft.others
  path : result.part.path = draft.part.path
  conditions : ∃ cs, result.part.conditions = draft.part.conditions ++ cs ∧
    cs.length = operations.countP Operation.isFilter
  orderBy : ∃ keys, result.part.orderBy = keys ++ draft.part.orderBy ∧
    keys.length = operations.countP Operation.isSort
  /-- Only a projection chooses other columns. -/
  columns : operations.countP Operation.isProjection = 0 → draft.part.returns.isSome = true →
    result.part.returns.isSome = true ∧
      result.part.columns.map ReturnItem.value = draft.part.columns.map ReturnItem.value

namespace Draft.Grows

lemma refl (draft : Draft) : draft.Grows [] draft :=
  ⟨rfl, rfl, ⟨[], by simp⟩, ⟨[], by simp⟩, fun _ h => ⟨h, rfl⟩⟩

lemma trans {last : Draft} (h : draft.Grows operations result) (hm : result.Grows more last) :
    draft.Grows (operations ++ more) last := by
  obtain ⟨first, hfirst, hcs⟩ := h.conditions
  obtain ⟨second, hsecond, hds⟩ := hm.conditions
  obtain ⟨keys, hkeys, hks⟩ := h.orderBy
  obtain ⟨front, hfront, hfs⟩ := hm.orderBy
  refine ⟨hm.others.trans h.others, hm.path.trans h.path, ⟨first ++ second, ?_, ?_⟩,
    ⟨front ++ keys, ?_, ?_⟩, fun hnone hreturns => ?_⟩
  · rw [hsecond, hfirst, List.append_assoc]
  · rw [List.length_append, hcs, hds, List.countP_append]
  · rw [hfront, hkeys, List.append_assoc]
  · rw [List.length_append, hks, hfs, List.countP_append, Nat.add_comm]
  · rw [List.countP_append, Nat.add_eq_zero_iff] at hnone
    obtain ⟨hsome, hvalues⟩ := h.columns hnone.1 hreturns
    obtain ⟨hlast, hmore⟩ := hm.columns hnone.2 hsome
    exact ⟨hlast, hmore.trans hvalues⟩

end Draft.Grows

lemma Draft.Follows.applied {outputs : List Output} (h : draft.Follows catalog type outputs)
    (ho : operation.arranges = true) (ha : draft.Applied naming catalog operation result) :
    result.Follows catalog type (Output.after type outputs operation) ∧
      draft.Grows [operation] result := by
  cases ha with
  | project _ hitems =>
    obtain ⟨rfl, -⟩ := h.propertyItems_ok hitems (Output.held? outputs) []
    exact ⟨⟨h.found, .inr rfl⟩, rfl, rfl, ⟨[], by simp [Operation.isFilter]⟩,
      ⟨[], by simp [Operation.isSort]⟩, fun hnone => absurd hnone Nat.one_ne_zero⟩
  | @filter _ c _ hc =>
    exact ⟨⟨h.found, h.columns⟩, rfl, rfl, ⟨[c], rfl, rfl⟩, ⟨[], by simp [Operation.isSort]⟩,
      fun _ hreturns => ⟨hreturns, rfl⟩⟩
  | @rename _ _ items renamed hitems hrenamed =>
    have hvalues := map_value_renameItem hrenamed
    obtain rfl := h.returnItems_ok hitems
    refine ⟨⟨h.found, .inr (congrArg some (Output.renameItem_ok hrenamed))⟩, rfl, rfl,
      ⟨[], by simp [Operation.isFilter]⟩, ⟨[], by simp [Operation.isSort]⟩,
      fun _ hreturns => ⟨rfl, ?_⟩⟩
    rcases h.columns with ⟨hnone, -⟩ | hsome
    · rw [hnone] at hreturns
      cases hreturns
    · rw [Part.columns, Part.columns, hsome]
      exact hvalues
  | @orderBy _ direction target _ htarget =>
    exact ⟨⟨h.found, h.columns⟩, rfl, rfl, ⟨[], by simp [Operation.isFilter]⟩,
      ⟨[⟨target, direction⟩], rfl, rfl⟩, fun _ hreturns => ⟨hreturns, rfl⟩⟩
  | take | skip | count | nest | groupBy | edge | union => cases ho

lemma Draft.Follows.performAll {outputs : List Output} (h : draft.Follows catalog type outputs)
    (ho : ∀ operation ∈ operations, operation.arranges = true)
    (hp : draft.performAll naming catalog (operations.map .operation) = .ok result) :
    result.Follows catalog type (operations.foldl (Output.after type) outputs) ∧
      draft.Grows operations result := by
  induction operations generalizing draft outputs with
  | nil =>
    obtain rfl := Except.ok.inj hp
    exact ⟨h, .refl draft⟩
  | cons operation rest ih =>
    obtain ⟨hfirst, hrest⟩ := List.forall_mem_cons.1 ho
    obtain ⟨next, hnext, hp⟩ := performAll_cons.1 hp
    obtain ⟨hfollows, hgrows⟩ := h.applied hfirst (perform_operation_ok hnext).2
    obtain ⟨hlast, hmore⟩ := ih hfollows hrest hp
    exact ⟨hlast, hgrows.trans hmore⟩

lemma steps_eq_map (ho : ∀ operation ∈ operations, operation.arranges = true) :
    steps none operations = operations.map .operation := by
  induction operations with
  | nil => rfl
  | cons operation rest ih =>
    obtain ⟨hfirst, hrest⟩ := List.forall_mem_cons.1 ho
    rw [steps, stepsOf_operation (Operation.isEdge_of_arranges hfirst), ih hrest]
    rfl

/-! ### Statements -/

/-- The columns and the sort keys of a statement are made of the outputs behind all operations. -/
lemma Draft.Follows.reads {before behind : List Operation}
    {first last : Draft} {restrictions : Nat}
    (h : first.Follows catalog type (Output.ofType type))
    (hc : first.part.conditions.length = restrictions)
    (ho : ∀ step ∈ before ++ operation :: behind, step.arranges = true)
    (hp : first.performAll naming catalog ((before ++ operation :: behind).map .operation)
      = .ok last) :
    last.part.Reads type restrictions before operation behind := by
  have hlast : last.Follows catalog type
      (Output.behind type (before ++ operation :: behind)) := (h.performAll ho hp).1
  rw [List.map_append, performAll_append] at hp
  obtain ⟨draft, hbefore, hp⟩ := hp
  rw [List.map_cons, performAll_cons] at hp
  obtain ⟨result, hoperation, hbehind⟩ := hp
  rw [List.forall_mem_append, List.forall_mem_cons] at ho
  obtain ⟨hdraft, hgrown⟩ : draft.Follows catalog type (Output.behind type before) ∧
      first.Grows before draft := h.performAll ho.1 hbefore
  have happlied := (perform_operation_ok hoperation).2
  obtain ⟨hresult, hstep⟩ := hdraft.applied ho.2.1 happlied
  obtain ⟨-, hgrows⟩ := hresult.performAll ho.2.2 hbehind
  have hnode : last.part.path.last.name = draft.node := by
    rw [hgrows.path, hstep.path]
    rfl
  -- What the step adds is found again behind or in front of what later steps add.
  cases happlied with
  | project _ hitems =>
    intro hnone
    rw [(hgrows.columns hnone rfl).2, hnode]
    exact (hdraft.propertyItems_ok hitems some _).2
  | @filter predicate c _ hcondition =>
    obtain ⟨cs, hcs, hlength⟩ := hgrown.conditions
    obtain ⟨more, hmore, -⟩ := hgrows.conditions
    refine ⟨c, ?_, hnode ▸ hdraft.condition_ok _ hcondition⟩
    rw [hmore, ← hc, ← hlength, ← List.length_append, ← hcs, List.append_assoc,
      List.getElem?_append_right (Nat.le_refl _), Nat.sub_self]
    rfl
  | rename => trivial
  | @orderBy reference direction target _ htarget =>
    obtain ⟨keys, hkeys, hlength⟩ := hgrows.orderBy
    refine ⟨⟨target, direction⟩, ?_, fun held hheld => ?_⟩
    · rw [hkeys, ← hlength, List.getElem?_append_right (Nat.le_refl _), Nat.sub_self]
      rfl
    · change last.node = draft.node at hnode
      change last.part.sortedBy? target = some ⟨last.node, held⟩ ↔ _
      rcases hdraft.sortTarget_ok htarget with ⟨hgiven, rfl⟩ | ⟨hnone, field, hfield, rfl⟩
      · -- the name is looked up among the columns that there are in the end
        rw [hlast.sortedBy?_named, if_pos hgiven, hnode, Option.map_eq_some_iff]
        exact ⟨fun ⟨read, hread, heq⟩ => (Property.mk.inj heq).2 ▸ hread,
          fun hread => ⟨held, hread, rfl⟩⟩
      · rw [if_neg hnone, hfield, hnode, Part.sortedBy?, Option.some.injEq, Option.some.injEq,
          Property.mk.injEq]
        exact and_iff_right rfl
  | take | skip | count | nest | groupBy | edge | union => cases ho.2.1

lemma follows_of_restrict {source : Source} (ht : catalog.type? source.objectType = some type)
    (hr : (Draft.start source.objectType type).restrict catalog source.ids = .ok draft) :
    draft.Follows catalog type (Output.ofType type) ∧ draft.others = [] ∧
      draft.part.conditions.length = source.ids.toList.length := by
  obtain ⟨objectType, ids⟩ := source
  cases ids with
  | none =>
    obtain rfl := Compile.pure_eq_ok.1 hr
    exact ⟨⟨ht, .inl ⟨rfl, rfl⟩⟩, rfl, rfl⟩
  | some ids =>
    obtain ⟨property, -, hr⟩ := Compile.bind_eq_ok.1 hr
    obtain rfl := Compile.pure_eq_ok.1 hr
    exact ⟨⟨ht, .inl ⟨rfl, rfl⟩⟩, rfl, rfl⟩

/-- In a query that only chooses, renames, filters and sorts, a reference of a condition or a
projection means in the statement what the output of its name holds exactly if the output is called
after the field that it holds.  A sort key does so exactly if no output was given the name and the
output is called after its field, or one was and the column that is given it in the end reads what
the output holds. -/
theorem denotes_held_iff (naming : String → String) (catalog : Catalog) (query : Query)
    (statement : Statement)
    (ho : ∀ operation ∈ query.operations, operation.arranges = true)
    (h : compile catalog query naming = .ok statement) :
    ∃ type part, catalog.type? query.source.objectType = some type ∧ statement = [part] ∧
      ∀ before operation behind, query.operations = before ++ operation :: behind →
        part.Reads type query.source.ids.toList.length before operation behind := by
  obtain ⟨draft, hdraft, rfl⟩ := Compile.map_eq_ok.1 h
  obtain ⟨type, first, htype, hfirst, hsteps⟩ := ofQuery_ok hdraft
  obtain ⟨hfollows, hsingle, hlength⟩ := follows_of_restrict htype hfirst
  rw [steps_eq_map ho] at hsteps
  refine ⟨type, draft.part, htype, ?_, fun before operation behind hsplit => ?_⟩
  · rw [Draft.statement, (hfollows.performAll ho hsteps).2.others, hsingle]
  · rw [hsplit] at ho hsteps
    exact hfollows.reads hlength ho hsteps

/-- Users whose name is called their age, in the order of their names. -/
def agesByName : Query :=
  ⟨{ objectType := "User" },
    [.project ["id", "user.name", "age"], .rename "age" "years", .rename "name" "age",
     .filter (.comparison "id" .greaterThan (.integer 3)), .orderBy "age" .ascending]⟩

theorem denotes_held_iff_agesByName :
    (∀ operation ∈ agesByName.operations, operation.arranges = true) ∧
      ∃ part, compile SocialGraph.catalog agesByName = .ok [part] ∧
        part.lines = ["MATCH (u:User)", "WHERE u.id > 3",
          "RETURN u.id, u.name AS age, u.age AS years", "ORDER BY age"] ∧
        ∀ before operation behind, agesByName.operations = before ++ operation :: behind →
          part.Reads SocialGraph.user 0 before operation behind := by
  have ho : ∀ operation ∈ agesByName.operations, operation.arranges = true := by decide
  obtain ⟨type, part, htype, hpart, hreads⟩ :=
    denotes_held_iff Text.upperSnakeCase SocialGraph.catalog agesByName _ ho rfl
  obtain rfl := Option.some.inj htype
  obtain ⟨rfl, -⟩ := List.cons.inj hpart
  exact ⟨ho, _, rfl, by decide +kernel, hreads⟩

/-- Users called Ada, whose name is called their age. -/
def agesCalledAda : Query :=
  ⟨{ objectType := "User" },
    [.rename "age" "years", .rename "name" "age",
     .filter (.comparison "age" .equals (.string "Ada"))]⟩

/-- The output called age holds the name, but the condition compares the age. -/
theorem denotes_held_iff_agesCalledAda :
    ∃ part, compile SocialGraph.catalog agesCalledAda = .ok [part] ∧
      part.lines = ["MATCH (u:User)", "WHERE u.age = 'Ada'",
        "RETURN u.id, u.name AS age, u.age AS years"] ∧
      Output.held? (Output.behind SocialGraph.user (agesCalledAda.operations.take 2)) "age"
        = some "name" ∧
      ¬∀ c ∈ part.conditions, c.subjects = [⟨"u", "name"⟩] :=
  ⟨_, rfl, by decide +kernel, by decide +kernel, by decide +kernel⟩

end Cypher
end ObjectGraph
