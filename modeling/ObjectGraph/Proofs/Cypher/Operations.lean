/-
# Operations on parts

The clauses of a part have one order of evaluation, so an operation joins them only where it means
the same there: a filter or a sort before anything was skipped or limited, a skip before a limit, a
limit always, the least of several counting.  The others are refused, and what is left does to the
listing that a draft shows what it does to the draft.
-/
import ObjectGraph.Proofs.Cypher.Showing
import ObjectGraph.Proofs.Predicate.Atoms

namespace ObjectGraph.Cypher

open Compile (TextCondition)

variable {δ : Type} {D : Domain δ} {graph : Graph δ} {naming : String → String}
  {catalog : Catalog} {name : String} {type : ObjectType} {draft result : Draft}
  {listing : Listing δ} {header : Header} {operation : Operation}

/-! ### What an operation does -/

/-- What an operation that is not refused finds, and what it makes of the draft. -/
inductive Draft.Applied (naming : String → String) (catalog : Catalog) (draft : Draft) :
    Operation → Draft → Prop
  | project {fields : List String} {items : List ReturnItem} :
    draft.aggregated = false → draft.propertyItems catalog fields = .ok items →
    Applied naming catalog draft (.project fields)
      { draft with part := { draft.part with returns := some items } }
  | filter {predicate : Predicate} {c : Compile.TextCondition Property} :
    draft.requireOpen "filters after limits" = .ok () → draft.condition catalog predicate = .ok c →
    Applied naming catalog draft (.filter predicate)
      { draft with part := { draft.part with conditions := draft.part.conditions ++ [c] } }
  | take (n : UInt32) :
    Applied naming catalog draft (.take n)
      { draft with part := { draft.part with limit := some (lowerLimit draft.part.limit n) } }
  | skip (n : UInt32) :
    draft.part.limit = none →
    Applied naming catalog draft (.skip n)
      { draft with part :=
        { draft.part with skip := some (Compile.saturatingAdd (draft.part.skip.getD 0) n) } }
  | count :
    draft.requireOpen "count after limits" = .ok () →
    Applied naming catalog draft .count (draft.aggregate [{ name := "count", value := .count }] [])
  | nest (key : String) :
    draft.requireOpen "nest after limits" = .ok () →
    Applied naming catalog draft (.nest key)
      (draft.aggregate [{ name := key, value := draft.collected, givenName := some key }] [])
  | groupBy {key : String} {property : Property} :
    draft.requireOpen "group_by after limits" = .ok () → draft.resolve catalog key = .ok property →
    Applied naming catalog draft (.groupBy key)
      (draft.aggregate
        [{ name := "key", value := .property property, givenName := some "key" },
         { name := "items", value := .collect draft.node, givenName := some "items" }]
        [{ target := .named "key" }])
  | rename {old new : String} {items renamed : List ReturnItem} :
    draft.returnItems catalog = .ok items →
    renameItem (unqualified old) (unqualified new) items = some renamed →
    Applied naming catalog draft (.rename old new)
      { draft with part := { draft.part with returns := some renamed } }
  | orderBy {key : String} {direction : Direction} {target : SortTarget} :
    draft.isLimited = false → draft.sortTarget catalog (unqualified key) = .ok target →
    Applied naming catalog draft (.orderBy key direction)
      { draft with part :=
        { draft.part with orderBy := ⟨target, direction⟩ :: draft.part.orderBy } }
  /-- Edges are followed by hops. -/
  | edge (name : String) (inner : List Operation) :
    Applied naming catalog draft (.edge name inner) draft
  | union {queries : List Query} {others : List Part} :
    branches naming catalog queries = .ok others →
    Applied naming catalog draft (.union queries) { draft with others }

/-- Whatever holds of an operation that is not refused is read off these rules. -/
lemma applied_of_apply (hu : ∀ queries, operation ≠ .union queries)
    (h : draft.apply catalog operation = .ok result) :
    draft.Applied naming catalog operation result := by
  cases operation with
  | project fields =>
    rw [Draft.apply] at h
    split at h
    · cases h
    · rename_i hplain
      obtain ⟨items, hitems, h⟩ := Compile.bind_eq_ok.1 h
      obtain rfl := Compile.pure_eq_ok.1 h
      exact .project (Bool.eq_false_iff.2 hplain) hitems
  | filter predicate =>
    obtain ⟨_, hopen, h⟩ := Compile.bind_eq_ok.1 h
    obtain ⟨c, hc, h⟩ := Compile.bind_eq_ok.1 h
    obtain rfl := Compile.pure_eq_ok.1 h
    exact .filter hopen hc
  | take n =>
    obtain rfl := Except.ok.inj h
    exact .take n
  | skip n =>
    rw [Draft.apply] at h
    split at h
    · cases h
    · rename_i hlimit
      obtain rfl := Compile.pure_eq_ok.1 h
      exact .skip n (by simpa using hlimit)
  | count =>
    obtain ⟨_, hopen, h⟩ := Compile.bind_eq_ok.1 h
    obtain rfl := Compile.pure_eq_ok.1 h
    exact .count hopen
  | nest key =>
    obtain ⟨_, hopen, h⟩ := Compile.bind_eq_ok.1 h
    obtain rfl := Compile.pure_eq_ok.1 h
    exact .nest key hopen
  | groupBy key =>
    obtain ⟨_, hopen, h⟩ := Compile.bind_eq_ok.1 h
    obtain ⟨property, hproperty, h⟩ := Compile.bind_eq_ok.1 h
    obtain rfl := Compile.pure_eq_ok.1 h
    exact .groupBy hopen hproperty
  | rename old new =>
    obtain ⟨items, hitems, h⟩ := Compile.bind_eq_ok.1 h
    split at h
    · cases h
    · rename_i renamed hrenamed
      obtain rfl := Compile.pure_eq_ok.1 h
      exact .rename hitems hrenamed
  | orderBy key direction =>
    rw [Draft.apply] at h
    split at h
    · cases h
    · rename_i hopen
      obtain ⟨target, htarget, h⟩ := Compile.bind_eq_ok.1 h
      obtain rfl := Compile.pure_eq_ok.1 h
      exact .orderBy (Bool.eq_false_iff.2 hopen) htarget
  | edge name inner =>
    obtain rfl := Except.ok.inj h
    exact .edge name inner
  | union queries => exact absurd rfl (hu queries)

/-! ### Refusals -/

lemma requireOpen_ok {what : String} (h : draft.requireOpen what = .ok ()) :
    draft.part.limit = none ∧ draft.part.skip = none ∧ draft.aggregated = false := by
  rw [Draft.requireOpen] at h
  split at h
  · cases h
  · rename_i hopen
    simp only [Draft.isLimited, Bool.or_eq_true, not_or, Bool.not_eq_true,
      Option.isSome_eq_false_iff, Option.isNone_iff_eq_none] at hopen
    exact ⟨hopen.1.1, hopen.1.2, hopen.2⟩

/-- The variable is dropped from a sort key twice, which is once if no dot is left behind it. -/
lemma resolve_unqualified {key : String} (h : '.' ∉ (unqualified key).toList) :
    draft.resolve catalog (unqualified key) = draft.resolve catalog key := by
  rw [Draft.resolve, Draft.resolve, Predicate.unqualified_eq_self h]

/-! ### Operations on matches -/

namespace Shows

/-- With other clauses that return the same, a draft shows other rows of the same kind. -/
lemma withPart (h : Shows D graph name type draft listing) (ha : draft.aggregated = false)
    {part : Part} {rows : List (Record δ)} (hpath : part.path = draft.part.path)
    (hreturns : part.returns = draft.part.returns)
    (hsorted : ∀ key ∈ part.orderBy, ∃ property, key.target = .property property)
    (hrows : ∀ output : Record δ → Record δ,
      (∀ node, ∀ column ∈ listing.header, (output node).cell column.1 = node.cell column.1) →
      listing.rows = (draft.part.left D type.propertyType graph).map
        (fun found => output (found.node draft.node)) →
      (part.left D type.propertyType graph).map (fun found => output (found.node draft.node))
        = rows) :
    Shows D graph name type { draft with part := part } { listing with rows } := by
  have hplain := h.plain ha
  obtain ⟨output, hreturned, hcells⟩ := hplain.output
  have hsame (found : List (Match δ)) : part.returned D found
      = found.map fun found => (found, output (found.node draft.node)) := by
    rw [← hreturned, Part.returned, Part.returned, hpath, hreturns]
  have hbefore := h.rows.symm.trans (rows_eq_map hplain.sorted hreturned type.propertyType)
  refine ⟨h.single, (rows_eq_map hsorted hsame _).trans (hrows output hcells hbefore), ?_,
    fun _ => ?_⟩
  · rw [hreturns]
    exact h.unnamed
  · have hnode : { draft with part := part }.node = draft.node :=
      congrArg (fun path => path.last.name) hpath
    exact ⟨hplain.typeName, hpath.trans hplain.path, hplain.nodup, hplain.fields, hsorted, output,
      by rw [hnode]; exact hsame, hcells⟩

/-- A condition joins the others in front of the sort, as it would drop the same rows after it. -/
lemma addCondition (h : Shows D graph name type draft listing) (hl : draft.part.limit = none)
    (hs : draft.part.skip = none) (ha : draft.aggregated = false) {c : TextCondition Property}
    {test : Record δ → Truth}
    (ht : ∀ (output : Record δ → Record δ) (found : Match δ),
      (∀ node, ∀ column ∈ listing.header, (output node).cell column.1 = node.cell column.1) →
      c.truth D type.propertyType found.cell = test (output (found.node draft.node))) :
    Shows D graph name type
      { draft with part := { draft.part with conditions := draft.part.conditions ++ [c] } }
      { listing with rows := listing.rows.filter fun row => test row == some true } := by
  refine h.withPart ha rfl rfl (h.plain ha).sorted fun output hcells hrows => ?_
  have htests : Part.tests D type.propertyType
      { draft.part with conditions := draft.part.conditions ++ [c] }
        = draft.part.tests D type.propertyType
          ++ [fun found => test (output (found.node draft.node))] := by
    rw [Part.tests, List.map_append]
    refine congrArg _ (congrArg (fun t => [t]) (funext fun found => ?_))
    exact ht output found hcells
  rw [hrows, List.filter_map]
  refine congrArg _ ?_
  rw [Part.left, Part.left, htests, hl, hs]
  exact (filter_arrange fun found : Match δ => test (output (found.node draft.node))).symm

/-- What is resolved stands, in the node behind a result, for what references mean in the
result. -/
lemma means (hp : Plain D name type draft header) (ht : catalog.type? name = some type)
    (hi : type.PlainIdentity) {output : Record δ → Record δ} {found : Match δ}
    (ho : ∀ node, ∀ column ∈ header, (output node).cell column.1 = node.cell column.1) :
    draft.Means catalog header (output (found.node draft.node)) type.propertyType found.cell := by
  intro reference property hr hproperty
  obtain ⟨column, hc, rfl, htype⟩ := hp.property_eq ht hi hr hproperty
  refine ⟨htype, ?_⟩
  rw [Header.cell, hc]
  exact (ho _ column (Header.column?_eq_some hc).1).symm

lemma filter {predicate : Predicate} (h : Shows D graph name type draft listing)
    (ht : catalog.type? name = some type) (hi : type.PlainIdentity)
    (hp : predicate.Within listing.header)
    (hopen : draft.requireOpen "filters after limits" = .ok ()) {c : TextCondition Property}
    (hc : draft.condition catalog predicate = .ok c) :
    Shows D graph name type
      { draft with part := { draft.part with conditions := draft.part.conditions ++ [c] } }
      (listing.filter D predicate) := by
  obtain ⟨hl, hs, ha⟩ := requireOpen_ok hopen
  refine h.addCondition hl hs ha fun output found ho => ?_
  exact (renders_condition hc).truth (means (h.plain ha) ht hi ho) hp

/-- Nothing is sorted by a column that was given a name. -/
lemma sortTarget_ok (h : Shows D graph name type draft listing) {key : String}
    {target : SortTarget} (hr : draft.sortTarget catalog key = .ok target) :
    draft.aggregated = false ∧
      ∃ property, draft.resolve catalog key = .ok property ∧ target = .property property := by
  have hnone : draft.hasGivenName key = false := by
    rw [Draft.hasGivenName, List.any_eq_false]
    intro item hitem
    rw [h.unnamed item hitem]
    simp
  rw [Draft.sortTarget, hnone] at hr
  cases ha : draft.aggregated with
  | true =>
    rw [ha] at hr
    cases hr
  | false =>
    rw [ha] at hr
    obtain ⟨property, hproperty, hr⟩ := Compile.bind_eq_ok.1 hr
    exact ⟨rfl, property, hproperty, (Compile.pure_eq_ok.1 hr).symm⟩

/-- A sort key in front of the others sorts like a sort after theirs. -/
lemma sortBy {key : String} {direction : Direction} (h : Shows D graph name type draft listing)
    (ht : catalog.type? name = some type) (hi : type.PlainIdentity)
    (hk : listing.header.Has key) (hdot : '.' ∉ (unqualified key).toList)
    (hopen : draft.isLimited = false) {target : SortTarget}
    (htarget : draft.sortTarget catalog (unqualified key) = .ok target) :
    Shows D graph name type { draft with part :=
      { draft.part with orderBy := ⟨target, direction⟩ :: draft.part.orderBy } }
      (listing.sortBy D key direction) := by
  have hlimits : draft.part.limit = none ∧ draft.part.skip = none := by
    simpa [Draft.isLimited] using hopen
  obtain ⟨ha, property, hproperty, rfl⟩ := h.sortTarget_ok htarget
  rw [resolve_unqualified hdot] at hproperty
  refine h.withPart ha rfl rfl (List.forall_mem_cons.2 ⟨⟨property, rfl⟩, (h.plain ha).sorted⟩)
    fun output hcells hrows => ?_
  have horder : (fun a b => listing.order D key direction (output (Match.node a draft.node))
      (output (Match.node b draft.node)))
        = fun a b => D.directed direction (Match.cell a property) (Match.cell b property) := by
    funext a b
    rw [Listing.order, ← (means (h.plain ha) ht hi hcells key property hk hproperty).2,
      ← (means (h.plain ha) ht hi hcells key property hk hproperty).2]
  rw [hrows, Stable.sort_map, horder]
  refine congrArg _ ?_
  rw [Part.left, Part.left, hlimits.1, hlimits.2]
  exact (sort_arrange direction fun found : Match δ => Match.cell found property).symm

/-- A limit of a limit is the smaller one. -/
lemma slice_lowerLimit {α : Type} (limit skip : Option UInt32) (n : UInt32) (rows : List α) :
    Sql.slice (some (Draft.lowerLimit limit n)) skip rows
      = (Sql.slice limit skip rows).take n.toNat := by
  cases limit with
  | none => rfl
  | some limit =>
    rw [Draft.lowerLimit, Sql.slice, UInt32.toNat_min, Nat.min_comm, ← List.take_take]
    rfl

/-- The least of all limits counts. -/
lemma take (n : UInt32) (h : Shows D graph name type draft listing) :
    Shows D graph name type
      { draft with part :=
        { draft.part with limit := some (Draft.lowerLimit draft.part.limit n) } }
      (listing.take n) := by
  refine ⟨h.single, ?_, h.unnamed, fun ha => { h.plain ha with }⟩
  rw [Listing.take, ← h.rows, Part.rows, Part.rows, ← List.map_take, slice_lowerLimit]
  rfl

/-- Skips add up, as long as their sum is not too large. -/
lemma skip {n : UInt32} (h : Shows D graph name type draft listing)
    (hl : draft.part.limit = none)
    (hn : (draft.part.skip.getD 0).toNat + n.toNat < UInt32.size) :
    Shows D graph name type
      { draft with part :=
        { draft.part with skip := some (Compile.saturatingAdd (draft.part.skip.getD 0) n) } }
      (listing.skip n) := by
  refine ⟨h.single, ?_, h.unnamed, fun ha => { h.plain ha with }⟩
  rw [Listing.skip, ← h.rows, Part.rows, Part.rows, ← List.map_drop]
  refine congrArg _ ?_
  simp only [hl, Sql.slice, Option.getD_some, Compile.toNat_saturatingAdd hn, List.drop_drop]
  rfl

/-- Matches are counted in any order. -/
lemma count (h : Shows D graph name type draft listing)
    (hopen : draft.requireOpen "count after limits" = .ok ()) :
    Shows D graph name type (draft.aggregate [{ name := "count", value := .count }] [])
      (listing.count D) := by
  obtain ⟨hl, hs, ha⟩ := requireOpen_ok hopen
  have hplain := h.plain ha
  obtain ⟨output, hreturned, -⟩ := hplain.output
  have hlength : listing.rows.length = (draft.part.kept D type.propertyType graph).length := by
    rw [← h.rows, rows_eq_map hplain.sorted hreturned, List.length_map, Part.left, hl, hs,
      Sql.slice_none]
    exact Stable.length_sort _
  refine ⟨h.single, ?_, ?_, ?_⟩
  · -- The count is the only result, so there is nothing to sort.
    rw [Listing.count, hlength]
    simp only [Draft.aggregate, Part.rows, hl, hs, Sql.slice_none]
    rfl
  · simp [Draft.aggregate]
  · simp [Draft.aggregate]

/-- Items that are properties of the node reached last are evaluated for every match. -/
lemma returned_properties {items : List ReturnItem} {part : Part} {node : String}
    {names : List String} (hi : part.returns = some items)
    (hc : items.map (fun item => (item.column, item.value))
      = names.map fun name => (name, .property ⟨node, name⟩)) (found : List (Match δ)) :
    part.returned D found
      = found.map fun found => (found, (found.node node).choose names) := by
  have hcolumns : columns items
      = names.eraseDups.map fun name => (name, .property ⟨node, name⟩) := by
    have hinjective : ∀ a ∈ names, ∀ b ∈ names,
        ((a, .property ⟨node, a⟩) : String × Value) = (b, .property ⟨node, b⟩) → a = b :=
      fun a _ b _ hab => congrArg Prod.fst hab
    rw [columns, hc, Once.eraseDups_map hinjective]
  have hgroups : groups D (columns items) found = found.map fun found => (found, []) := by
    have hnone : (columns items).any (·.2.aggregates) = false := by
      rw [hcolumns, List.any_map]
      exact List.any_eq_false.2 fun name _ => Bool.false_ne_true
    rw [groups, hnone]
    rfl
  rw [hcolumns] at hgroups
  rw [Part.returned, hi]
  simp only [hcolumns, hgroups, List.map_map]
  rfl

/-- Whatever was skipped or limited, other columns are returned for the same matches. -/
lemma project {fields : List String} (h : Shows D graph name type draft listing)
    (ht : catalog.type? name = some type) (hi : type.PlainIdentity)
    (hf : ∀ field ∈ fields, listing.header.Has field)
    (ha : draft.aggregated = false) {items : List ReturnItem}
    (hitems : draft.propertyItems catalog fields = .ok items) :
    Shows D graph name type { draft with part := { draft.part with returns := some items } }
      (listing.project fields) := by
  have hplain := h.plain ha
  obtain ⟨output, hreturned, hcells⟩ := hplain.output
  obtain ⟨hunnamed, hcolumns⟩ := hplain.propertyItems_eq ht hi hf hitems
  have hchosen : ∀ found : List (Match δ),
      Part.returned D { draft.part with returns := some items } found
        = found.map fun found =>
          (found, (found.node draft.node).choose (listing.header.meant fields)) :=
    returned_properties rfl hcolumns
  -- The keys sort by properties of the nodes, whichever columns are returned.
  have hsorted : ∀ key ∈ Part.orderBy { draft.part with returns := some items },
      ∃ property, key.target = .property property := hplain.sorted
  have hrows : Part.rows D type.propertyType graph { draft.part with returns := some items }
      = (draft.part.left D type.propertyType graph).map fun found =>
        (found.node draft.node).choose (listing.header.meant fields) :=
    rows_eq_map hsorted hchosen _
  have hsubset := Header.choose_meant_subset hplain.nodup fields
  rw [Listing.project_eq hplain.nodup]
  refine ⟨h.single, ?_, hunnamed, fun _ => ?_⟩
  · refine hrows.trans ?_
    rw [← h.rows, rows_eq_map hplain.sorted hreturned, List.map_map]
    refine List.map_congr_left fun found _ => List.map_congr_left fun chosen hm => ?_
    obtain ⟨column, hc, rfl⟩ := List.mem_map.1 (Header.mem_names_of_meant
      (List.mem_eraseDups.1 hm))
    rw [hcells _ column hc]
  · refine ⟨hplain.typeName, hplain.path, ?_, fun column hc => hplain.fields column (hsubset hc),
      hplain.sorted, _, hchosen, ?_⟩
    · rw [Header.names, Record.names_choose]
      exact Once.nodup_eraseDups _
    · intro node column hc
      exact Record.cell_choose (Record.mem_of_mem_choose hc)

end Shows

end ObjectGraph.Cypher
