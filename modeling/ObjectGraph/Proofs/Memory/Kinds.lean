/-
# Values and literals of one kind

Three tables have to fit together for a condition to mean what it says: which values validation
lets into a field, which literals the compiler lets a field be compared with, and which values can
be ordered against which literals.  A reference is first taken to the field it means, by whichever
of its names, and then all three are asked about the type of this field.
-/
import ObjectGraph.Proofs.Json.Normalizing
import ObjectGraph.Proofs.Memory.Conditions

namespace ObjectGraph

/-- The identity of an item that was made of members is not stored under `id`. -/
lemma Item.id_not_mem_keys_ofMembers (members : List (String × Json)) :
    "id" ∉ (ofMembers members).keys := by
  intro hid
  obtain ⟨entry, hentry, hkey⟩ := List.mem_map.1 (Named.mem_keys_collapse.1 hid)
  obtain ⟨⟨key, value⟩, -, rfl⟩ := List.mem_map.1 hentry
  exact normalizeKey_ne_id key hkey

namespace Compile

variable {catalog : Catalog} {draft : Draft} {e : Sql.Expression}

/-- A test asks a reference of a draft for nothing but literals that suit its type. -/
def Draft.Accepts (catalog : Catalog) (draft : Draft) (test : String × List Literal) : Prop :=
  ∃ target, draft.resolve catalog test.1 = .ok target ∧
    ∀ type, target.2 = some type → ∀ value ∈ test.2, (suitable? type value).isSome = true

lemma accepts_of_comparison {field : String} {operator : ComparisonOperator} {value : Literal}
    (h : comparison catalog draft field operator value = .ok e) :
    draft.Accepts catalog (field, [value]) := by
  obtain ⟨⟨left, found⟩, hres, hcases⟩ := comparison_ok h
  refine ⟨_, hres, ?_⟩
  rintro type rfl
  rw [List.forall_mem_singleton]
  rcases hcases with ⟨rfl, -⟩ | ⟨-, right, hright, -⟩
  · rfl
  · exact suitable_of_literal hright

lemma accepts_of_membership {field : String} {values : List Literal}
    (h : membership catalog draft field values = .ok e) :
    draft.Accepts catalog (field, values) := by
  obtain ⟨⟨left, found⟩, hres, hcases⟩ := membership_ok h
  refine ⟨_, hres, ?_⟩
  rintro type rfl
  rcases hcases with ⟨rfl, -⟩ | ⟨es, hes, -⟩
  · exact List.forall_mem_nil _
  · exact suitable_of_literals hes

mutual

/-- A predicate has a condition only if each of its tests is accepted. -/
lemma accepts_of_condition : ∀ {p : Predicate} {e : Sql.Expression},
    condition catalog draft p = .ok e → ∀ test ∈ p.tests, draft.Accepts catalog test
  | .all parts, _, h => by
    simp only [condition] at h
    exact accepts_of_conjunction h
  | .any [], _, _ => List.forall_mem_nil _
  | .any (part :: rest), _, h => by
    simp only [condition, bind_eq_ok] at h
    obtain ⟨first, hfirst, h⟩ := h
    exact List.forall_mem_append.2 ⟨accepts_of_condition hfirst, accepts_of_disjunction h⟩
  | .negation part, _, h => by
    simp only [condition, bind_eq_ok, pure_eq_ok] at h
    obtain ⟨inner, hi, -⟩ := h
    rw [Predicate.tests]
    exact accepts_of_condition hi
  | .comparison field operator value, _, h => by
    simp only [condition] at h
    exact List.forall_mem_singleton.2 (accepts_of_comparison h)
  | .oneOf field values, _, h => by
    simp only [condition] at h
    exact List.forall_mem_singleton.2 (accepts_of_membership h)
  | .isNull field, _, h => by
    simp only [condition, bind_eq_ok] at h
    obtain ⟨target, hres, -⟩ := h
    exact List.forall_mem_singleton.2 ⟨target, hres, fun _ _ => List.forall_mem_nil _⟩

lemma accepts_of_conjunction : ∀ {parts : List Predicate} {before e : Sql.Expression},
    conjunction catalog draft before parts = .ok e →
    ∀ test ∈ Predicate.partTests parts, draft.Accepts catalog test
  | [], _, _, _ => List.forall_mem_nil _
  | part :: rest, _, _, h => by
    simp only [conjunction, bind_eq_ok] at h
    obtain ⟨next, hn, h⟩ := h
    exact List.forall_mem_append.2 ⟨accepts_of_condition hn, accepts_of_conjunction h⟩

lemma accepts_of_disjunction : ∀ {parts : List Predicate} {before e : Sql.Expression},
    disjunction catalog draft before parts = .ok e →
    ∀ test ∈ Predicate.partTests parts, draft.Accepts catalog test
  | [], _, _, _ => List.forall_mem_nil _
  | part :: rest, _, _, h => by
    simp only [disjunction, bind_eq_ok] at h
    obtain ⟨next, hn, h⟩ := h
    exact List.forall_mem_append.2 ⟨accepts_of_condition hn, accepts_of_disjunction h⟩

end

/-- Validated objects and accepted predicates never meet in values of different kinds.  If objects
of a type are identified by `id`, whatever a literal other than null is held against in a valid
object is null or missing, or has an order with the literal. -/
theorem exists_order_of_condition (catalog : Catalog) (name : String) (type : ObjectType)
    (counts last : AliasCounts) (draft : Draft) (p : Predicate) (e : Sql.Expression)
    (members : List (String × Json)) (ht : catalog.type? name = some type)
    (hid : type.idField = "id") (hkey : idKey ∉ type.fields.keys)
    (hs : (start catalog name none none).run counts = .ok (draft, last))
    (he : condition catalog draft p = .ok e)
    (hv : type.validate (Item.ofMembers members).members.entries = .ok ()) :
    ∀ test ∈ p.tests, ∀ literal ∈ test.2, literal ≠ .null →
      isNothing ((Item.ofMembers members).valueOf test.1) = true ∨
        ∃ value order, (Item.ofMembers members).valueOf test.1 = some value ∧
          compareLiteral value literal = some order := by
  intro test htest literal hliteral hn
  obtain ⟨_, tied, chosen, ht', -, -, rfl⟩ := start_ok hs
  obtain rfl := Option.some.inj (ht.symm.trans ht')
  obtain ⟨target, hres, hsuits⟩ := accepts_of_condition he test htest
  obtain ⟨entry, hm, rfl⟩ := resolve_start ht hres
  have hanswers := Item.answers_of_plain ⟨hid, hkey⟩
    (fun hk => absurd hk (Item.id_not_mem_keys_ofMembers members)) test.1
  rw [hanswers entry hm]
  rcases ObjectType.fits_of_validate hv hm.1 with hnone | ⟨value, hvalue, -, hf⟩
  · exact .inl hnone
  · have hsuitable := hsuits entry.2.type rfl literal hliteral
    obtain ⟨order, horder⟩ := (ScalarType.sameKind_of_suitable hf hn hsuitable).exists_order
    exact .inr ⟨value, order, hvalue, horder⟩

/-- Whoever is sixteen or is the first user. -/
def sixteenOrFirst : Predicate :=
  .any [.comparison "user.age" .greaterOrEqual (.integer 16),
    .negation (.negation (.oneOf ":id" [.null, .integer 1]))]

/-- Sixteen meets a missing age, and the first identity meets an integer. -/
theorem exists_order_of_condition_ageless :
    ∃ draft last e,
      (start SocialGraph.catalog "User" none none).run [] = .ok (draft, last) ∧
      condition SocialGraph.catalog draft sixteenOrFirst = .ok e ∧
      SocialGraph.user.validate ageless.members.entries = .ok () ∧
      ∀ test ∈ sixteenOrFirst.tests, ∀ literal ∈ test.2, literal ≠ .null →
        isNothing (ageless.valueOf test.1) = true ∨
          ∃ value order, ageless.valueOf test.1 = some value ∧
            compareLiteral value literal = some order := by
  have hok : ((start SocialGraph.catalog "User" none none).run [] >>= fun started =>
      condition SocialGraph.catalog started.1 sixteenOrFirst).isOk = true := by decide +kernel
  obtain ⟨e, h⟩ := exists_of_isOk hok
  obtain ⟨⟨draft, last⟩, hs, he⟩ := bind_eq_ok.1 h
  have ht : SocialGraph.catalog.type? "User" = some SocialGraph.user := by decide
  have hv : SocialGraph.user.validate ageless.members.entries = .ok () := rfl
  exact ⟨draft, last, e, hs, he, hv, exists_order_of_condition SocialGraph.catalog "User"
    SocialGraph.user [] last draft sixteenOrFirst e
    [("id", .int 1), ("name", .string "a"), ("age", .null)] ht rfl (by decide) hs he hv⟩

end Compile
end ObjectGraph
