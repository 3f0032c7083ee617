/-
# Stages that show rows

A draft of stages shows a listing if running the stages leaves the listing.  As long as the last
stage neither counts nor renames, its output knows every field by the name that the input has for
it.  So a condition or a sort key, which speaks of the input, means what the operation said of the
output, and a stage that has not opened its clauses to others is left behind by the next one.
-/
import ObjectGraph.Proofs.Choosing
import ObjectGraph.Proofs.Compile.Folding
import ObjectGraph.Proofs.Malloy.Semantics
import ObjectGraph.Proofs.Rendering

namespace ObjectGraph

/-- Every field is stored in a column of its own name. -/
def ObjectType.StoredAsNamed (type : ObjectType) : Prop :=
  ∀ entry ∈ type.fields.entries, entry.2.column = entry.1

lemma ObjectType.StoredAsNamed.column_eq {type : ObjectType} (h : type.StoredAsNamed)
    {name : String} {field : Field} (hget : type.fields.get? name = some field) :
    field.column = name :=
  h _ (Named.mem_of_lookup hget)

namespace Malloy

open Compile (TextCondition)

variable {δ ε : Type} {D : Domain δ} {stored : Listing δ}

/-! ### Selected columns -/

/-- The column that keeps a field under its name, unless it is the one with a new name. -/
def renamedColumn (old new source : String) : Column :=
  if source = old then { source, renamed := some new } else { source }

lemma pick_plain (names : List String) (record : Record ε) :
    pick (names.map fun source => { source }) record = record.choose names := by
  rw [pick, Once.eraseDups_map, List.map_map]
  · rfl
  · intro a _ b _ h
    exact congrArg Column.source h

lemma source_renamedColumn (old new source : String) :
    (renamedColumn old new source).source = source := by
  rw [renamedColumn]
  split <;> rfl

lemma name_renamedColumn (old new source : String) :
    (renamedColumn old new source).name = Record.newName old new source := by
  rw [renamedColumn, Record.newName]
  split <;> rfl

lemma pick_renamed (old new : String) (names : List String) (record : Record ε) :
    pick (names.map (renamedColumn old new)) record = (record.choose names).rename old new := by
  rw [pick, Once.eraseDups_map, Record.choose, Record.rename_eq, List.map_map, List.map_map]
  · refine List.map_congr_left fun name _ => ?_
    simp only [Function.comp_apply, name_renamedColumn, source_renamedColumn]
  · intro a _ b _ h
    rw [← source_renamedColumn old new a, h, source_renamedColumn]

/-! ### The invariant -/

/-- The input of the last stage of a draft. -/
def Draft.input (D : Domain δ) (stored : Listing δ) (draft : Draft) : Listing δ :=
  runAll D draft.done stored

/-- A draft whose stages leave a listing, with output fields as its columns. -/
structure Shows (D : Domain δ) (stored : Listing δ) (draft : Draft) (listing : Listing δ) :
    Prop where
  identity : draft.type.PlainIdentity
  named : draft.type.StoredAsNamed
  run : draft.last.run D (draft.input D stored) = listing
  names : listing.header.names = draft.fields.eraseDups
  rows : ∀ row ∈ listing.rows, row.map Prod.fst = listing.header.names
  unmarked : idKey ∉ listing.header.names
  /-- A stage that neither renames nor counts selects its output fields, if it selects any. -/
  plain : draft.renamed = false → draft.last.counts = false →
    draft.last.columns? = none ∨
      draft.last.columns? = some (draft.fields.map fun source => { source })

/-- A last stage that neither renames nor counts. -/
structure Draft.Open (draft : Draft) : Prop where
  renamed : draft.renamed = false
  counts : draft.last.counts = false

namespace Shows

variable {draft result : Draft} {listing : Listing δ}

lemma nodup (h : Shows D stored draft listing) : listing.header.names.Nodup := by
  rw [h.names]
  exact Once.nodup_eraseDups _

lemma mem_fields (h : Shows D stored draft listing) {name : String}
    (hn : name ∈ listing.header.names) : name ∈ draft.fields := by
  rw [h.names] at hn
  exact List.mem_eraseDups.1 hn

/-- The listing of an open draft has what the last stage puts out for the rows that are left. -/
lemma listing_eq (h : Shows D stored draft listing) (ho : draft.Open) :
    listing = ⟨draft.last.output (draft.input D stored).header,
      (draft.last.left D (draft.input D stored)).map draft.last.output⟩ := by
  rw [← h.run, Stage.run, ho.counts]
  rfl

/-- An open stage keeps the cells of its output fields. -/
lemma cell_output (h : Shows D stored draft listing) (ho : draft.Open) (record : Record ε)
    {name : String} (hn : name ∈ draft.fields) :
    (draft.last.output record).cell name = record.cell name := by
  rw [Stage.output]
  rcases h.plain ho.renamed ho.counts with hcolumns | hcolumns
  · rw [hcolumns]
  · rw [hcolumns]
    simp only [pick_plain]
    exact Record.cell_choose hn

/-! ### References -/

/-- The name of a field, which the mark of the identity is not. -/
def unmarkedName (name : String) : String := if name = idKey then "id" else name

lemma column_stored? (h : Shows D stored draft listing) {name : String} {field : Field}
    (hf : draft.stored? name = some field) : field.column = unmarkedName name := by
  rw [Draft.stored?] at hf
  split at hf
  · simp only [ObjectType.lookupField, h.identity.idField, Option.map_map,
      Option.map_eq_some_iff] at hf
    obtain ⟨found, hget, rfl⟩ := hf
    exact h.named.column_eq hget
  · cases hf

lemma outputName_eq (h : Shows D stored draft listing) (name : String) :
    draft.outputName name = unmarkedName name := by
  rw [Draft.outputName, unmarkedName]
  split
  · split
    · rename_i field hfield
      rw [ObjectType.identity?, h.identity.idField] at hfield
      exact h.named.column_eq hfield
    · exact h.identity.idField
  · rfl

/-- The mark of the identity is resolved to the field `id`, if it is resolved. -/
lemma resolve_idKey (h : Shows D stored draft listing) {name : String}
    (hr : draft.resolve idKey = .ok name) : name = "id" := by
  have hlooked : (if unqualified idKey = "id" then idKey else unqualified idKey) = idKey := by
    decide
  simp only [Draft.resolve, hlooked] at hr
  split at hr
  · rename_i field hfield
    rw [← Except.ok.inj hr, h.column_stored? hfield]
    rfl
  · split at hr
    · rw [← Except.ok.inj hr, h.outputName_eq]
      rfl
    · cases hr

/-- Whether a stage reads stored rows or the output of another one, it knows a column by its
name. -/
lemma resolve_eq (h : Shows D stored draft listing) {reference : String}
    {column : String × Option ScalarType} (hc : listing.header.column? reference = some column) :
    draft.resolve reference = .ok column.1 := by
  obtain ⟨hmem, hname⟩ := Header.column?_eq_some hc
  have hnames : column.1 ∈ listing.header.names := List.mem_map_of_mem hmem
  have hmarked : column.1 ≠ idKey := fun hkey => h.unmarked (hkey ▸ hnames)
  -- The name that is looked up is that of the column, or the mark of the identity for `id`.
  obtain ⟨name, hlooked, hmeant⟩ : ∃ name,
      (if unqualified reference = "id" then idKey else unqualified reference) = name ∧
        unmarkedName name = column.1 := by
    refine ⟨_, rfl, ?_⟩
    rcases hname with hname | ⟨hkey, hname⟩
    · rw [← hname]
      by_cases hid : column.1 = "id"
      · rw [if_pos hid, unmarkedName, if_pos rfl, hid]
      · rw [if_neg hid, unmarkedName, if_neg hmarked]
    · rw [hkey, hname]
      decide
  simp only [Draft.resolve, hlooked]
  split
  · rename_i field hfield
    rw [h.column_stored? hfield, hmeant]
  · rw [h.outputName_eq, hmeant, if_pos (h.mem_fields hnames)]

lemma resolveAll_eq (h : Shows D stored draft listing) {references : List String}
    (hr : ∀ reference ∈ references, listing.header.Has reference) :
    draft.resolveAll references = .ok (listing.header.meant references) := by
  induction references with
  | nil => rfl
  | cons reference rest ih =>
    obtain ⟨hfirst, hrest⟩ := List.forall_mem_cons.1 hr
    obtain ⟨column, hc⟩ := Option.isSome_iff_exists.1 hfirst
    rw [Draft.resolveAll, h.resolve_eq hc, ih hrest, Header.meant_cons hc]
    rfl

end Shows

/-! ### Conditions -/

/-- Whether the names that references are resolved to stand for the columns that they mean. -/
def Draft.Means (draft : Draft) (header : Header) (record : Record δ)
    (types : String → Option ScalarType) (cells : String → Cell δ) : Prop :=
  ∀ reference name, header.Has reference → draft.resolve reference = .ok name →
    types name = header.type? reference ∧ cells name = header.cell record reference

end Malloy
end ObjectGraph
