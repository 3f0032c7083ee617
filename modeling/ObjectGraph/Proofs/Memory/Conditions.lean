/-
# Conditions in memory and in a database

A predicate is evaluated on an object and compiled to a condition over the row of the object.
Over a row that holds the values of the object the condition says what the three-valued reading of
the predicate says, so that evaluation and condition agree wherever null cannot upset the
predicate.  The file ends with the ways in which they differ elsewhere.
-/
import ObjectGraph.Proofs.Compile.Showing
import ObjectGraph.Proofs.Memory.Held
import ObjectGraph.Proofs.Predicate.Normal
import ObjectGraph.Samples.SocialGraph

namespace ObjectGraph

variable {δ : Type} {D : Domain δ} {db : Database δ} {canonical : ScalarType → String → Prop}

/-! ### Objects and their rows -/

/-- A field that a reference may mean: the one of that name or, for `id` and `:id`, the
identity. -/
def ObjectType.Means (type : ObjectType) (reference : String) (entry : String × Field) : Prop :=
  entry ∈ type.fields.entries ∧
    (entry.1 = unqualified reference ∨
      entry.1 = type.idField ∧ unqualified reference ∈ ["id", idKey])

/-- Whether a reference finds in an object what the object holds in the field that is meant. -/
def Item.Answers (item : Item) (type : ObjectType) (reference : String) : Prop :=
  ∀ entry, type.Means reference entry →
    item.valueOf reference = type.valueOf item.members.entries entry.1

/-- A row that holds the values of an object, which a database may hold: every column has the cell
of a field's value. -/
structure Item.StoredAs (D : Domain δ) (canonical : ScalarType → String → Prop)
    (type : ObjectType) (item : Item) (row : Record δ) : Prop where
  cells : ∀ entry ∈ type.fields.entries, row.cell entry.2.column
    = entry.2.type.cell D ((type.valueOf item.members.entries entry.1).getD .null)
  storable : ∀ entry ∈ type.fields.entries, ∀ v,
    type.valueOf item.members.entries entry.1 = some v → v.Storable canonical entry.2.type

section Objects

variable {type : ObjectType} {item : Item} {row : Record δ} {entry : String × Field}
  {reference : String}

/-- An object answers references to a type with a plain identity if it holds its own once. -/
lemma Item.answers_of_plain (hp : type.PlainIdentity)
    (hid : "id" ∈ item.keys → idKey ∉ item.keys) (reference : String) :
    item.Answers type reference := by
  have hswap : (item.members.get? "id").or (item.members.get? idKey)
      = (item.members.get? idKey).or (item.members.get? "id") := by
    by_cases hk : "id" ∈ item.keys
    · rw [Item.get?_eq_none (hid hk), Option.or_none, Option.none_or]
    · rw [Item.get?_eq_none hk, Option.or_none, Option.none_or]
  rintro entry ⟨he, hr⟩
  rw [Item.valueOf, Item.get?, ObjectType.valueOf, hp.idField]
  rcases hr with hr | ⟨hidentity, hr⟩
  · rw [← hr]
    by_cases hname : entry.1 = "id"
    · rw [hname]
      exact hswap
    · have hkey : entry.1 ≠ idKey := by
        rintro hk
        exact hp.marked (hk ▸ List.mem_map_of_mem he)
      rw [if_neg hname, if_neg hkey, Option.or_none, if_neg hname]
      rfl
  · rw [hidentity, hp.idField, if_pos rfl]
    rcases List.mem_pair.1 hr with hr | hr
    · rw [hr]
      exact hswap
    · rw [hr]
      rfl

lemma ObjectType.means_of_lookupField
    (h : type.lookupField (if unqualified reference = "id" then idKey else unqualified reference)
      = some entry) : type.Means reference entry := by
  obtain ⟨field, hf, rfl⟩ := Option.map_eq_some_iff.1 h
  refine ⟨Named.mem_of_lookup hf, ?_⟩
  by_cases hid : unqualified reference = "id"
  · simp [hid]
  · by_cases hkey : unqualified reference = idKey
    · simp [hkey]
    · simp [hid, hkey]

/-- What an object of a type holds in a field is null or fits. -/
lemma ObjectType.fits_of_validate {object : List (String × Json)}
    (hv : type.validate object = .ok ()) (he : entry ∈ type.fields.entries) :
    isNothing (type.valueOf object entry.1) = true ∨
      ∃ v, type.valueOf object entry.1 = some v ∧ v ≠ .null ∧ entry.2.type.fits v = true := by
  have hfield := List.findSome?_eq_none_iff.1 (ObjectType.problem?_of_validate hv) entry he
  simp only [Field.problem?] at hfield
  split at hfield
  · rename_i h
    exact .inl (by rw [h]; rfl)
  · rename_i h
    exact .inl (by rw [h]; rfl)
  · rename_i v hn h
    refine .inr ⟨v, h, fun he => hn (he ▸ rfl), ?_⟩
    by_contra hf
    simp [hf] at hfield

/-- The cell of the field that a reference means holds the value that the reference finds. -/
lemma Item.StoredAs.held (h : item.StoredAs D canonical type row)
    (hv : type.validate item.members.entries = .ok ()) (ha : item.Answers type reference)
    (hm : type.Means reference entry) :
    Held D canonical entry.2.type (item.valueOf reference) (row.cell entry.2.column) := by
  rw [ha entry hm, h.cells entry hm.1]
  rcases ObjectType.fits_of_validate hv hm.1 with hnone | ⟨v, hv, hn, hf⟩
  · have hcell : entry.2.type.cell D ((type.valueOf item.members.entries entry.1).getD .null)
        = none := by
      unfold isNothing at hnone
      split at hnone
      · rename_i h
        rw [h]
        rfl
      · rename_i h
        rw [h]
        rfl
      · cases hnone
    rw [hcell]
    exact .nothing hnone
  · rw [hv]
    exact .value hn hf (h.storable entry hm.1 v hv)

end Objects

namespace Predicate

/-- Whether a reference finds its field in an object, the strings that it is held against being
written canonically if they stand for something else. -/
structure Fair (canonical : ScalarType → String → Prop) (type : ObjectType) (item : Item)
    (test : String × List Literal) : Prop where
  answers : item.Answers type test.1
  strings : ∀ entry, type.Means test.1 entry → entry.2.type.isStringEncoded = true →
    ∀ s, .string s ∈ test.2 → canonical entry.2.type s

end Predicate

namespace Compile

open Sql (Expression RowEnvironment TableAlias)

/-! ### Conditions and readings -/

variable {catalog : Catalog} {draft : Draft} {rows : RowEnvironment δ} {item : Item}
  {e : Expression}

/-- In an environment of its clauses a draft has a cell for a test, which holds the value that the
test finds in an object, and strings that stand for something else are written canonically. -/
def Draft.Sees (D : Domain δ) (db : Database δ) (canonical : ScalarType → String → Prop)
    (catalog : Catalog) (draft : Draft) (rows : RowEnvironment δ) (item : Item)
    (test : String × List Literal) : Prop :=
  ∀ target, draft.resolve catalog test.1 = .ok target → ∃ type, target.2 = some type ∧
    (type.isStringEncoded = true → ∀ s, .string s ∈ test.2 → canonical type s) ∧
    Held D canonical type (item.valueOf test.1) (target.1.eval D db rows [])

lemma reading_comparison (hD : D.Standard canonical) {field : String}
    {operator : ComparisonOperator} {value : Literal}
    (hs : Draft.Sees D db canonical catalog draft rows item (field, [value]))
    (h : comparison catalog draft field operator value = .ok e) :
    D.toTruth (e.eval D db rows [])
      = (Predicate.comparison field operator value).reading item := by
  obtain ⟨⟨left, found⟩, hres, hcases⟩ := comparison_ok h
  obtain ⟨type, rfl, hstrings, hheld⟩ := hs _ hres
  rw [Predicate.reading]
  rcases hcases with ⟨rfl, hcheck⟩ | ⟨hn, right, hright, rfl⟩
  · -- Whether there is a value is known of every cell.
    have hnone := hheld.isNone_eq hD
    cases operator <;> cases hcheck
    · simp [Literal.reading, compareWithLiteral, Expression.eval, Domain.toTruth,
        D.truth_boolean, hnone]
    · simp [Literal.reading, compareWithLiteral, Expression.eval, Domain.toTruth, Domain.ofTruth,
        Truth.not, D.truth_boolean, hnone]
  · rw [Sql.eval_comparison, Domain.toTruth_ofTruth, eval_literal hright]
    exact hheld.holds_literal hD operator hn (suitable_of_literal hright)
      fun ht s hs => hstrings ht s (by simp [hs])

lemma reading_membership (hD : D.Standard canonical) {field : String} {values : List Literal}
    (hs : Draft.Sees D db canonical catalog draft rows item (field, values))
    (h : membership catalog draft field values = .ok e) :
    D.toTruth (e.eval D db rows []) = (Predicate.oneOf field values).reading item := by
  obtain ⟨⟨left, found⟩, hres, hcases⟩ := membership_ok h
  obtain ⟨type, rfl, hstrings, hheld⟩ := hs _ hres
  rw [Predicate.reading]
  rcases hcases with ⟨rfl, rfl⟩ | ⟨es, hes, rfl⟩
  · exact Sql.truth_false _ _
  · rw [Expression.eval, Domain.toTruth_ofTruth, evalList_literals hes]
    exact hheld.among_literals hD (suitable_of_literals hes) hstrings

mutual

/-- Where the tests of a predicate see the values of an object, its condition says what the
predicate says of the object. -/
lemma reading_condition (hD : D.Standard canonical) : ∀ {p : Predicate} {e : Expression},
    (∀ test ∈ p.tests, Draft.Sees D db canonical catalog draft rows item test) →
    condition catalog draft p = .ok e → D.toTruth (e.eval D db rows []) = p.reading item
  | .all parts, _, hs, h => by
    simp only [condition] at h
    simp only [Predicate.tests] at hs
    rw [Predicate.reading, reading_conjunction hD hs h, Sql.truth_true, Truth.true_and]
  | .any [], _, _, h => by
    simp only [condition] at h
    cases h
    rw [Predicate.reading, Predicate.anyReading, Sql.truth_false]
  | .any (part :: rest), _, hs, h => by
    simp only [condition, bind_eq_ok] at h
    obtain ⟨first, hfirst, h⟩ := h
    simp only [Predicate.tests, Predicate.partTests, List.forall_mem_append] at hs
    rw [reading_disjunction hD hs.2 h, reading_condition hD hs.1 hfirst, Predicate.reading,
      Predicate.anyReading]
  | .negation part, _, hs, h => by
    simp only [condition, bind_eq_ok, pure_eq_ok] at h
    obtain ⟨inner, hi, rfl⟩ := h
    simp only [Predicate.tests] at hs
    rw [Expression.eval, Domain.toTruth_ofTruth, reading_condition hD hs hi, Predicate.reading]
  | .comparison field operator value, _, hs, h => by
    simp only [condition] at h
    exact reading_comparison hD (hs _ (by simp [Predicate.tests])) h
  | .oneOf field values, _, hs, h => by
    simp only [condition] at h
    exact reading_membership hD (hs _ (by simp [Predicate.tests])) h
  | .isNull field, _, hs, h => by
    simp only [condition, bind_eq_ok, pure_eq_ok] at h
    obtain ⟨target, hres, rfl⟩ := h
    obtain ⟨_, -, -, hheld⟩ := hs (field, []) (by simp [Predicate.tests]) target hres
    simp [Expression.eval, Predicate.reading, hheld.isNone_eq hD, Domain.toTruth,
      D.truth_boolean]

lemma reading_conjunction (hD : D.Standard canonical) :
    ∀ {parts : List Predicate} {before e : Expression},
    (∀ test ∈ Predicate.partTests parts, Draft.Sees D db canonical catalog draft rows item test) →
    conjunction catalog draft before parts = .ok e →
    D.toTruth (e.eval D db rows [])
      = Truth.and (D.toTruth (before.eval D db rows [])) (Predicate.allReading item parts)
  | [], _, _, _, h => by
    simp only [conjunction, pure_eq_ok] at h
    rw [h, Predicate.allReading, Truth.and_true]
  | part :: rest, _, _, hs, h => by
    simp only [conjunction, bind_eq_ok] at h
    obtain ⟨next, hn, h⟩ := h
    simp only [Predicate.partTests, List.forall_mem_append] at hs
    rw [reading_conjunction hD hs.2 h, Sql.truth_both, reading_condition hD hs.1 hn,
      Predicate.allReading, Truth.and_assoc]

lemma reading_disjunction (hD : D.Standard canonical) :
    ∀ {parts : List Predicate} {before e : Expression},
    (∀ test ∈ Predicate.partTests parts, Draft.Sees D db canonical catalog draft rows item test) →
    disjunction catalog draft before parts = .ok e →
    D.toTruth (e.eval D db rows [])
      = Truth.or (D.toTruth (before.eval D db rows [])) (Predicate.anyReading item parts)
  | [], _, _, _, h => by
    simp only [disjunction, pure_eq_ok] at h
    rw [h, Predicate.anyReading, Truth.or_false]
  | part :: rest, _, _, hs, h => by
    simp only [disjunction, bind_eq_ok] at h
    obtain ⟨next, hn, h⟩ := h
    simp only [Predicate.partTests, List.forall_mem_append] at hs
    rw [reading_disjunction hD hs.2 h, Expression.eval, Domain.toTruth_ofTruth,
      reading_condition hD hs.1 hn, Predicate.anyReading, Truth.or_assoc]

end

/-! ### Objects before anything is done to them -/

section Start

variable {name : String} {type : ObjectType} {handle : TableAlias} {chosen : Expression}
  {row : Record δ}

/-- While nothing was done to the objects of a type, a reference is resolved to the column of a
field that it may mean. -/
lemma resolve_start {reference : String} {target : Expression × Option ScalarType}
    (ht : catalog.type? name = some type)
    (h : (startDraft name type handle chosen).resolve catalog reference = .ok target) :
    ∃ entry, type.Means reference entry ∧
      target = (.column handle entry.2.column, some entry.2.type) := by
  simp only [Draft.resolve] at h
  split at h
  · rename_i column hc
    have hmem := List.mem_of_find?_eq_some hc
    have hanswers := List.find?_some (p := fun c : Column => c.answersTo _) hc
    obtain ⟨entry, he, rfl⟩ := List.mem_map.1 hmem
    refine ⟨entry, ⟨he, ?_⟩, (pure_eq_ok.1 h).symm⟩
    simp only [Column.answersTo, identityColumn, Bool.or_eq_true, Bool.and_eq_true,
      beq_iff_eq] at hanswers
    exact hanswers.imp_right fun h => ⟨h.1, by simpa [or_comm] using h.2⟩
  · obtain ⟨found, hf, h⟩ := bind_eq_ok.1 h
    simp only [Draft.storedField?, startDraft, bind_eq_ok, requireType_ok, ht, Option.some.injEq,
      pure_eq_ok] at hf
    obtain ⟨_, rfl, rfl⟩ := hf
    split at h
    · rename_i hl
      obtain ⟨entry, hentry, rfl⟩ := Option.map_eq_some_iff.1 hl
      exact ⟨entry, ObjectType.means_of_lookupField hentry, (pure_eq_ok.1 h).symm⟩
    · cases h

lemma sees_start (db : Database δ) (around : RowEnvironment δ)
    (hr : item.StoredAs D canonical type row) (hv : type.validate item.members.entries = .ok ())
    (ht : catalog.type? name = some type) {test : String × List Literal}
    (hf : Predicate.Fair canonical type item test) :
    Draft.Sees D db canonical catalog (startDraft name type handle chosen)
      ((handle, row) :: around) item test := by
  intro target h
  obtain ⟨entry, hm, rfl⟩ := resolve_start ht h
  refine ⟨entry.2.type, rfl, hf.strings entry hm, ?_⟩
  rw [Expression.eval, Sql.cell_cons_self]
  exact hr.held hv hf.answers hm

/-- Evaluating a predicate on an object gives the answer that its condition gives over the row of
the object, if it gives one; and if null cannot upset the predicate, it holds of exactly the
objects whose rows satisfy the condition. -/
theorem evaluate_of_condition (D : Domain δ) (canonical : ScalarType → String → Prop)
    (hD : D.Standard canonical) (db : Database δ) (around : RowEnvironment δ) (catalog : Catalog)
    (name : String) (type : ObjectType) (counts last : AliasCounts) (draft : Draft)
    (p : Predicate) (e : Expression) (item : Item) (row : Record δ)
    (ht : catalog.type? name = some type)
    (hs : (start catalog name none none).run counts = .ok (draft, last))
    (he : condition catalog draft p = .ok e)
    (hv : type.validate item.members.entries = .ok ())
    (hr : item.StoredAs D canonical type row)
    (hf : ∀ test ∈ p.tests, Predicate.Fair canonical type item test) :
    (∀ b, D.toTruth (e.eval D db ((draft.handle, row) :: around) []) = some b →
        p.evaluate item = b) ∧
      (p.Settled item false → (p.evaluate item = true ↔
        D.toTruth (e.eval D db ((draft.handle, row) :: around) []) = some true)) := by
  obtain ⟨_, tied, chosen, ht', -, -, rfl⟩ := start_ok hs
  obtain rfl := Option.some.inj (ht.symm.trans ht')
  have hread : D.toTruth (e.eval D db ((nextAlias counts type.table, row) :: around) [])
      = p.reading item :=
    reading_condition hD (fun test hm => sees_start db around hr hv ht (hf test hm)) he
  have hallows := p.allows_reading item
  refine ⟨fun b hb => hallows.eq (hread.symm.trans hb), fun hp => ⟨fun h => ?_, fun h => ?_⟩⟩
  · exact hread.trans (p.reading_of_settled item hp h)
  · exact hallows.eq (hread.symm.trans h)

end Start

/-- A user whose age is not known. -/
def ageless : Item := .ofMembers [("id", .int 1), ("name", .string "a"), ("age", .null)]

/-- Whoever is sixteen or is not called so. -/
def sixteenOrOther : Predicate :=
  .any [.comparison "user.age" .greaterOrEqual (.integer 16),
    .negation (.comparison "name" .equals (.string "b"))]

/-- The row of the user. -/
def agelessRow : Record Datum :=
  [("id", some (.integer 1)), ("name", some (.text "a")), ("age", none)]

lemma storedAs_ageless :
    ageless.StoredAs Datum.standard (fun _ _ => True) SocialGraph.user agelessRow := by
  have hentries : SocialGraph.user.fields.entries
      = [("id", { column := "id", type := .bigint, nullable := false }),
         ("name", { column := "name", type := .text }),
         ("age", { column := "age", type := .integer })] := by decide
  constructor
  · rw [hentries]
    simp only [List.forall_mem_cons]
    exact ⟨rfl, rfl, rfl, by simp⟩
  · rw [hentries]
    simp only [List.forall_mem_cons]
    refine ⟨fun v h => ?_, fun v h => ?_, fun v h => ?_, by simp⟩
    · obtain rfl : Json.int 1 = v := Option.some.inj h
      exact ⟨by rintro _ ⟨⟩; rfl, fun _ _ _ => trivial⟩
    · obtain rfl : Json.string "a" = v := Option.some.inj h
      exact ⟨by rintro _ ⟨⟩, fun _ _ _ => trivial⟩
    · obtain rfl : Json.null = v := Option.some.inj h
      exact ⟨by rintro _ ⟨⟩, fun _ _ _ => trivial⟩

theorem evaluate_of_condition_ageless :
    ∃ draft last e,
      (start SocialGraph.catalog "User" none none).run [] = .ok (draft, last) ∧
      condition SocialGraph.catalog draft sixteenOrOther = .ok e ∧
      (sixteenOrOther.evaluate ageless = true ↔
        Datum.standard.toTruth (e.eval Datum.standard (fun _ => []) [(draft.handle, agelessRow)] [])
          = some true) := by
  have hok : ((start SocialGraph.catalog "User" none none).run [] >>= fun started =>
      condition SocialGraph.catalog started.1 sixteenOrOther).isOk = true := by decide +kernel
  obtain ⟨e, h⟩ := exists_of_isOk hok
  obtain ⟨⟨draft, last⟩, hs, he⟩ := bind_eq_ok.1 h
  have ht : SocialGraph.catalog.type? "User" = some SocialGraph.user := by decide
  have hv : SocialGraph.user.validate ageless.members.entries = .ok () := rfl
  have hf : ∀ test ∈ sixteenOrOther.tests,
      Predicate.Fair (fun _ _ => True) SocialGraph.user ageless test := fun test _ =>
    ⟨Item.answers_of_plain ⟨rfl, by decide⟩ (by decide) test.1, fun _ _ _ _ _ => trivial⟩
  have hsettled : sixteenOrOther.Settled ageless false := by
    simp only [sixteenOrOther, Predicate.Settled, Predicate.partsSettled]
    exact ⟨by decide, by decide, trivial⟩
  have h := evaluate_of_condition Datum.standard _ Datum.standard_standard (fun _ => []) []
    SocialGraph.catalog "User" SocialGraph.user [] last draft sixteenOrOther e ageless agelessRow
    ht hs he hv storedAs_ageless hf
  exact ⟨draft, last, e, hs, he, h.2 hsettled⟩

/-! ### Where the two differ -/

/-- A catalog of nothing but things. -/
def things (type : ObjectType) : Catalog := Catalog.empty.withType "Thing" type

/-- Whether a predicate holds of a thing when its condition does not over the row with the same
values, or the other way round. -/
def Disagree (D : Domain δ) (type : ObjectType) (item : Item) (row : Record δ) (p : Predicate) :
    Prop :=
  ∃ draft last e, (start (things type) "Thing" none none).run [] = .ok (draft, last) ∧
    condition (things type) draft p = .ok e ∧
    type.validate item.members.entries = .ok () ∧
    (∀ entry ∈ type.fields.entries, row.cell entry.2.column
      = entry.2.type.cell D ((type.valueOf item.members.entries entry.1).getD .null)) ∧
    ¬ (p.evaluate item = true ↔
      D.toTruth (e.eval D (fun _ => []) [(draft.handle, row)] []) = some true)

section Disagree

variable {type : ObjectType} {item : Item} {row : Record δ} {p : Predicate}

lemma type?_things (type : ObjectType) : (things type).type? "Thing" = some type := rfl

lemma disagree_of (hok : ((start (things type) "Thing" none none).run [] >>= fun started =>
      condition (things type) started.1 p).isOk = true)
    (hv : type.validate item.members.entries = .ok ())
    (hr : ∀ entry ∈ type.fields.entries, row.cell entry.2.column
      = entry.2.type.cell D ((type.valueOf item.members.entries entry.1).getD .null))
    (h : ∀ handle chosen e,
      condition (things type) (startDraft "Thing" type handle chosen) p = .ok e →
      ¬ (p.evaluate item = true ↔
        D.toTruth (e.eval D (fun _ => []) [(handle, row)] []) = some true)) :
    Disagree D type item row p := by
  obtain ⟨e, he⟩ := exists_of_isOk hok
  obtain ⟨⟨draft, last⟩, hs, he⟩ := bind_eq_ok.1 he
  obtain ⟨_, tied, chosen, ht, -, -, rfl⟩ := start_ok hs
  obtain rfl := Option.some.inj ((type?_things type).symm.trans ht)
  exact ⟨_, last, e, hs, he, hv, hr, h _ _ e he⟩

/-- A type with one field. -/
def single (idField name : String) (scalar : ScalarType) : ObjectType where
  table := "things"
  idField
  fields := .ofList [(name, { column := name, type := scalar })]

section Single

variable {idField name : String} {scalar : ScalarType} {handle : TableAlias} {chosen e : Expression}

/-- All references that are resolved mean the only field. -/
lemma resolve_single {reference : String} {target : Expression × Option ScalarType}
    (h : (startDraft "Thing" (single idField name scalar) handle chosen).resolve
      (things (single idField name scalar)) reference = .ok target) :
    target = (.column handle name, some scalar) := by
  obtain ⟨entry, ⟨he, -⟩, rfl⟩ := resolve_start (type?_things _) h
  obtain rfl := List.mem_singleton.1 he
  rfl

lemma truth_single {field : String} {operator : ComparisonOperator} {value : Literal}
    (hn : value ≠ .null)
    (he : condition (things (single idField name scalar))
      (startDraft "Thing" (single idField name scalar) handle chosen)
      (.comparison field operator value) = .ok e) :
    D.toTruth (e.eval D db [(handle, row)] [])
      = D.holds operator (row.cell name) (value.cell D (some scalar)) := by
  simp only [condition] at he
  obtain ⟨target, hres, ⟨rfl, -⟩ | ⟨-, right, hright, rfl⟩⟩ := comparison_ok he
  · exact absurd rfl hn
  · obtain rfl := resolve_single hres
    rw [Sql.eval_comparison, Domain.toTruth_ofTruth, eval_literal hright, Expression.eval,
      Sql.cell_cons_self]

/-- A comparison with another answer in memory than between the cells. -/
lemma disagree_comparison {field : String} {operator : ComparisonOperator} {value : Literal}
    (hn : value ≠ .null)
    (hok : ((start (things (single idField name scalar)) "Thing" none none).run []
      >>= fun started => condition (things (single idField name scalar)) started.1
        (.comparison field operator value)).isOk = true)
    (hv : (single idField name scalar).validate item.members.entries = .ok ())
    (hr : ∀ entry ∈ (single idField name scalar).fields.entries, row.cell entry.2.column
      = entry.2.type.cell D
        (((single idField name scalar).valueOf item.members.entries entry.1).getD .null))
    (h : ¬ ((Predicate.comparison field operator value).evaluate item = true ↔
      D.holds operator (row.cell name) (value.cell D (some scalar)) = some true)) :
    Disagree D (single idField name scalar) item row (.comparison field operator value) := by
  refine disagree_of hok hv hr fun handle chosen e he => ?_
  rwa [truth_single hn he]

end Single

/-- Folding the case of the letters of an identifier. -/
def foldCase : Datum → Datum
  | .text s => .text (String.ofList (s.toList.map Char.toLower))
  | d => d

/-- The domain to try things out with, identifiers being the same in both cases. -/
def folding : Domain Datum := { Datum.standard with cast := fun _ d => some (foldCase d) }

/-- Null under a negation, null among several values, an identity that is not called `id`, integers
beyond 64 bits and strings with more than one notation. -/
theorem evaluate_of_condition_differs :
    Disagree Datum.standard (single "id" "age" .integer) (.ofMembers [("age", .null)])
        [("age", none)] (.negation (.comparison "age" .equals (.integer 16))) ∧
      Disagree Datum.standard (single "id" "age" .integer) (.ofMembers [("age", .null)])
        [("age", none)] (.oneOf "age" [.null]) ∧
      Disagree Datum.standard (single "key" "key" .integer) (.ofMembers [("key", .int 5)])
        [("key", some (.integer 5))] (.comparison ":id" .equals (.integer 5)) ∧
      Disagree Datum.standard (single "id" "size" .numeric)
        (.ofMembers [("size", .int 9223372036854775808)])
        [("size", some (.integer 9223372036854775808))]
        (.comparison "size" .equals (.integer 9223372036854775807)) ∧
      Disagree folding (single "id" "tag" .uuid) (.ofMembers [("tag", .string "A")])
        [("tag", some (.text "a"))] (.comparison "tag" .equals (.string "a")) := by
  refine ⟨?_, ?_, ?_, ?_, ?_⟩
  · refine disagree_of (by decide +kernel) rfl (List.forall_mem_singleton.2 rfl)
      fun handle chosen e he => ?_
    simp only [condition, bind_eq_ok, pure_eq_ok] at he
    obtain ⟨inner, hi, rfl⟩ := he
    rw [Expression.eval, Domain.toTruth_ofTruth, truth_single (by simp) hi]
    decide
  · refine disagree_of (by decide +kernel) rfl (List.forall_mem_singleton.2 rfl)
      fun handle chosen e he => ?_
    simp only [condition] at he
    obtain ⟨target, hres, ⟨hnil, -⟩ | ⟨es, hes, rfl⟩⟩ := membership_ok he
    · cases hnil
    · obtain rfl := resolve_single hres
      rw [Expression.eval, Domain.toTruth_ofTruth, evalList_literals hes, Expression.eval,
        Sql.cell_cons_self]
      dsimp only
      decide
  · exact disagree_comparison (by simp) (by decide +kernel) rfl
      (List.forall_mem_singleton.2 rfl) (by decide)
  · exact disagree_comparison (by simp) (by decide +kernel) rfl
      (List.forall_mem_singleton.2 rfl) (by decide +kernel)
  · exact disagree_comparison (by simp) (by decide +kernel) rfl
      (List.forall_mem_singleton.2 rfl) (by decide +kernel)

end Disagree

end Compile
end ObjectGraph
