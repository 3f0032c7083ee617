/-
# What the columns of a query hold

Beside the labels of its columns, the operations of a query decide what each column holds: a field
of the stored objects, a number of rows, or something that is made of objects.  Projecting and
renaming columns move what they hold along; a reference means the first column that answers to it.
-/
import ObjectGraph.Proofs.Compile.Outputs

namespace ObjectGraph.Compile

/-- What a column holds. -/
inductive Origin
  | field (field : Field)
  /-- How many rows there are. -/
  | number
  /-- The objects of an edge, or rows that were taken together. -/
  | objects
deriving DecidableEq

/-- The type of what a column holds. -/
def Origin.type? : Origin → Option ScalarType
  | field f => some f.type
  | number => some .bigint
  | objects => none

/-- The labels of columns, with what the columns hold. -/
abbrev Origins := List (Label × Origin)

namespace Origins

/-! ### After operations -/

/-- The fields of a type. -/
def ofType (type : ObjectType) : Origins :=
  type.fields.entries.map fun (name, field) => (⟨name, name == type.idField⟩, .field field)

/-- What the column that a reference means holds. -/
def find? (origins : Origins) (reference : String) : Option Origin :=
  (List.find? (fun entry => entry.1.answersTo (unqualified reference)) origins).map Prod.snd

/-- The columns that references mean, those of each name once. -/
def pick (origins picked : Origins) : List String → Origins
  | [] => picked
  | reference :: rest =>
    match List.find? (fun entry => entry.1.answersTo (unqualified reference)) origins with
    | none => pick origins picked rest
    | some entry =>
      if picked.any (·.1.name == entry.1.name) then pick origins picked rest
      else pick origins (picked ++ [entry]) rest

/-- The columns after the first one that a reference means was given a name. -/
def renameFirst (old new : String) : Origins → Origins
  | [] => []
  | (label, origin) :: rest =>
    if label.answersTo old then (.called new, origin) :: rest
    else (label, origin) :: renameFirst old new rest

/-- What columns hold after an operation.  A union keeps what is known of its first rows. -/
def after (origins : Origins) : Operation → Origins
  | .project fields => pick origins [] fields
  | .filter _ | .take _ | .skip _ | .orderBy _ _ | .union _ => origins
  | .count => [(⟨"count", false⟩, .number)]
  | .nest key => [(⟨key, false⟩, .objects)]
  | .groupBy key =>
    [(⟨"key", false⟩, (origins.find? key).getD .objects), (⟨"items", false⟩, .objects)]
  | .rename old new => renameFirst (unqualified old) (unqualified new) origins
  | .edge name _ => origins.filter (·.1.field != name) ++ [(⟨name, false⟩, .objects)]

/-- The origins behind all of the operations. -/
def afterAll (origins : Origins) : List Operation → Origins
  | [] => origins
  | step :: rest => (origins.after step).afterAll rest

end Origins

/-! ### Columns of different names -/

/-- A draft whose columns are named after their labels and have different names. -/
structure Draft.Apart (draft : Draft) : Prop where
  labelled : draft.Labelled
  nodup : draft.layout.names.Nodup

section Apart

variable {catalog : Catalog} {counts last : AliasCounts} {draft base result : Draft}

lemma Draft.Apart.nodup_names (h : draft.Apart) : draft.names.Nodup :=
  h.labelled.names_layout ▸ h.nodup

lemma start_apart {name : String} {ids : Option (List Int64)} {tied : Option Tie}
    (hn : catalog.NamesApart name)
    (h : (start catalog name ids tied).run counts = .ok (result, last)) :
    result.layout = .ofType catalog name ∧ result.Apart := by
  obtain ⟨hlayout, hlabelled⟩ := start_layout h
  exact ⟨hlayout, hlabelled, hlayout ▸ (Layout.nodup_names_ofType_iff catalog name).2 hn⟩

lemma operation_apart {step : Operation} (h : draft.Apart)
    (ha : step.NamesApart catalog draft.layout)
    (ho : (operation catalog draft step).run counts = .ok (result, last)) : result.Apart := by
  obtain ⟨hlayout, hlabelled⟩ := operation_layout step h.labelled ho
  exact ⟨hlabelled, hlayout ▸ (Layout.nodup_names_after_iff h.nodup step).2 ha.keepsApart⟩

end Apart

/-! ### References -/

/-- The field of the stored objects that a reference is resolved to when no column answers to it. -/
lemma Draft.resolve_stored {draft : Draft} {catalog : Catalog} {name reference : String}
    {type : ObjectType} {target : Sql.Expression × Option ScalarType}
    (hname : draft.type = some name) (htype : catalog.type? name = some type)
    (hc : draft.column? (unqualified reference) = none)
    (h : draft.resolve catalog reference = .ok target) :
    draft.readsTable = true ∧ ∃ entry,
      type.lookupField (if unqualified reference = identityColumn then idKey
        else unqualified reference) = some entry ∧
      target = (.column draft.handle entry.2.column, some entry.2.type) := by
  simp only [Draft.resolve, hc] at h
  obtain ⟨found, hf, h⟩ := bind_eq_ok.1 h
  cases hreads : draft.readsTable with
  | false =>
    simp only [Draft.storedField?, hreads, pure_eq_ok] at hf
    subst hf
    cases h
  | true =>
    simp only [Draft.storedField?, hreads, hname, bind_eq_ok, requireType_ok, htype,
      Option.some.injEq, pure_eq_ok] at hf
    obtain ⟨_, rfl, rfl⟩ := hf
    split at h
    · rename_i hl
      obtain ⟨entry, hentry, rfl⟩ := Option.map_eq_some_iff.1 hl
      exact ⟨rfl, entry, hentry, (pure_eq_ok.1 h).symm⟩
    · cases h

/-! ### Columns of drafts -/

/-- The columns have the labels that are given, and for each of them something is true of what it
holds. -/
def Hold (P : Column → Origin → Prop) (columns : List Column) (origins : Origins) : Prop :=
  List.Forall₂ (fun column entry => column.label = entry.1 ∧ P column entry.2) columns origins

namespace Hold

variable {P Q : Column → Origin → Prop} {columns : List Column} {origins : Origins}

lemma map (f : Column → Column) (h : Hold P columns origins)
    (hf : ∀ column ∈ columns, (f column).label = column.label ∧
      ∀ origin, P column origin → Q (f column) origin) : Hold Q (columns.map f) origins := by
  induction h with
  | nil => exact .nil
  | cons hentry _ ih =>
    obtain ⟨hfirst, hrest⟩ := List.forall_mem_cons.1 hf
    exact .cons ⟨hfirst.1.trans hentry.1, hfirst.2 _ hentry.2⟩ (ih hrest)

lemma labels (h : Hold P columns origins) : origins.map Prod.fst = columns.map Column.label := by
  induction h with
  | nil => rfl
  | cons hentry _ ih => rw [List.map_cons, List.map_cons, ih, hentry.1]

/-- A reference means a column and what it holds. -/
lemma find? (h : Hold P columns origins) (reference : String) :
    (columns.find? (·.answersTo (unqualified reference)) = none ∧
        origins.find? reference = none) ∨
      ∃ column origin, columns.find? (·.answersTo (unqualified reference)) = some column ∧
        List.find? (fun entry => entry.1.answersTo (unqualified reference)) origins
          = some (column.label, origin) ∧ P column origin := by
  induction h with
  | nil => exact .inl ⟨rfl, rfl⟩
  | @cons column entry columns rest hentry _ ih =>
    obtain ⟨label, origin⟩ := entry
    obtain ⟨rfl, hP⟩ := hentry
    have hsame : column.label.answersTo (unqualified reference)
        = column.answersTo (unqualified reference) := rfl
    cases ha : column.answersTo (unqualified reference) with
    | true => exact .inr ⟨column, origin, by simp [ha], by simp [hsame, ha], hP⟩
    | false => simpa [Origins.find?, hsame, ha] using ih

/-- A reference picks the origin of the column that it means. -/
lemma exists_pick_cons {draft : Draft} (h : Hold P draft.columns origins) {reference : String}
    {picked : List Column} {chosen : Origins} {column : Column}
    (hn : ∀ column ∈ picked, column.name = column.label.name)
    (hname : column.name = column.label.name) (hc : Hold P picked chosen)
    (hcolumn : draft.column? (unqualified reference) = some column) :
    ∃ origin, P column origin ∧ ∀ rest, origins.pick chosen (reference :: rest) =
      if column.name ∈ picked.map (·.name) then origins.pick chosen rest
      else origins.pick (chosen ++ [(column.label, origin)]) rest := by
  rcases h.find? reference with ⟨hnone, -⟩ | ⟨found, origin, hfound, hentry, hP⟩
  · rw [Draft.column?, hnone] at hcolumn
    cases hcolumn
  · obtain rfl := Option.some.inj (hfound.symm.trans hcolumn)
    have hany : (List.any chosen fun entry => entry.1.name == found.label.name) = true ↔
        found.name ∈ picked.map (·.name) := by
      rw [← Column.map_name_label hn, ← hc.labels, hname]
      simp
    refine ⟨origin, hP, fun rest => ?_⟩
    simp only [Origins.pick, hentry, hany]

lemma pick {draft : Draft} (h : Hold P draft.columns origins) {fields : List String}
    (hl : draft.Labelled) {picked picks : List Column} {chosen : Origins}
    (hn : ∀ column ∈ picked, column.name = column.label.name) (hc : Hold P picked chosen)
    (hp : draft.pick picked fields = .ok picks) :
    Hold P picks (origins.pick chosen fields) := by
  replace hp := Draft.picks_of_pick hp
  induction hp generalizing chosen with
  | done => exact hc
  | again hcolumn hin _ ih =>
    have hname := hl _ (Draft.column?_mem hcolumn)
    obtain ⟨origin, -, hpick⟩ := h.exists_pick_cons hn hname hc hcolumn
    rw [hpick, if_pos hin]
    exact ih hn hc
  | new hcolumn hin _ ih =>
    have hname := hl _ (Draft.column?_mem hcolumn)
    obtain ⟨origin, hP, hpick⟩ := h.exists_pick_cons hn hname hc hcolumn
    rw [hpick, if_neg hin]
    refine ih (List.forall_mem_append.2 ⟨hn, List.forall_mem_singleton.2 hname⟩) ?_
    exact List.rel_append hc (.cons ⟨rfl, hP⟩ .nil)

lemma renameFirst {old new : String} {renamed : List Column} (h : Hold P columns origins)
    (hP : ∀ column origin, P column origin → P (column.renamed new) origin)
    (hr : Column.renameFirst old new columns = some renamed) :
    Hold P renamed (origins.renameFirst old new) := by
  induction h generalizing renamed with
  | nil => cases hr
  | @cons column entry columns rest hentry hrest ih =>
    obtain ⟨label, origin⟩ := entry
    obtain ⟨rfl, hcolumn⟩ := hentry
    simp only [Column.renameFirst] at hr
    split at hr
    · rename_i ha
      cases hr
      have hlabel : column.label.answersTo old = true := ha
      rw [Origins.renameFirst, if_pos hlabel]
      exact .cons ⟨rfl, hP column origin hcolumn⟩ hrest
    · rename_i ha
      obtain ⟨others, ho, rfl⟩ := Option.map_eq_some_iff.1 hr
      have hlabel : ¬ column.label.answersTo old = true := ha
      rw [Origins.renameFirst, if_neg hlabel]
      exact .cons ⟨rfl, hcolumn⟩ (ih ho)

lemma filter (h : Hold P columns origins) (name : String) :
    Hold P (columns.filter (·.field != name)) (List.filter (·.1.field != name) origins) := by
  induction h with
  | nil => exact .nil
  | @cons column entry columns rest hentry _ ih =>
    have hfield : entry.1.field = column.field := by rw [← hentry.1]; rfl
    rw [List.filter_cons, List.filter_cons, hfield]
    split
    · exact .cons hentry ih
    · exact ih

end Hold

lemma hold_ofType {P : Column → Origin → Prop} {type : ObjectType} {table : Sql.TableAlias}
    (hP : ∀ column, ∀ field : Field, (∃ name, (name, field) ∈ type.fields.entries) →
      column.expression = .column table field.column → column.type = some field.type →
      P column (.field field)) :
    Hold P (Column.ofType type table) (.ofType type) := by
  refine List.forall₂_map_left_iff.2 (List.forall₂_map_right_iff.2 (List.forall₂_same.2 ?_))
  intro entry he
  exact ⟨rfl, hP _ entry.2 ⟨entry.1, he⟩ rfl rfl⟩

end ObjectGraph.Compile
