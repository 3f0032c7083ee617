/-
# Normal forms of predicates

What is asked of which field in a predicate, and the normal form in which predicates are read from
text: chains have at least two links, and checks for null are no comparisons.  A predicate from
elsewhere has a normal form unless a chain is empty or null is compared by order.
-/
import ObjectGraph.Proofs.Predicate.Grammar

namespace ObjectGraph.Predicate

mutual

/-- The references of a predicate, each with the literals that it is held against. -/
def tests : Predicate → List (String × List Literal)
  | all parts | any parts => partTests parts
  | negation part => part.tests
  | comparison field _ value => [(field, [value])]
  | oneOf field values => [(field, values)]
  | isNull field => [(field, [])]

/-- The tests in all parts, in order. -/
def partTests : List Predicate → List (String × List Literal)
  | [] => []
  | part :: rest => part.tests ++ partTests rest

end

mutual

/-- No chain is empty, and null is not compared by order. -/
def Expressible : Predicate → Prop
  | all parts | any parts => parts ≠ [] ∧ partsExpressible parts
  | negation part => part.Expressible
  | comparison _ op value => value = .null → op = .equals ∨ op = .notEquals
  | oneOf _ _ | isNull _ => True

/-- Whether all parts can be written as text. -/
def partsExpressible : List Predicate → Prop
  | [] => True
  | part :: rest => part.Expressible ∧ partsExpressible rest

end

mutual

/-- Chains of one are replaced by their only link, and comparisons with null by checks for it. -/
def norm : Predicate → Predicate
  | all parts => chain all (normParts parts)
  | any parts => chain any (normParts parts)
  | negation part => negation part.norm
  | comparison field .equals .null => isNull field
  | comparison field .notEquals .null => negation (isNull field)
  | comparison field op value => comparison field op value
  | oneOf field values => oneOf field values
  | isNull field => isNull field

/-- The normal forms of the parts. -/
def normParts : List Predicate → List Predicate
  | [] => []
  | part :: rest => part.norm :: normParts rest

end

/-- A field as predicates name it: without a variable in front. -/
def IsField (field : String) : Prop :=
  field ≠ "" ∧ '.' ∉ field.toList

mutual

/-- Chains have at least two links, and nothing is compared with null. -/
def Normal : Predicate → Prop
  | all parts | any parts => 2 ≤ parts.length ∧ partsNormal parts
  | negation part => part.Normal
  | comparison field _ value => IsField field ∧ value ≠ .null
  | oneOf field _ | isNull field => IsField field

/-- Whether all parts are in normal form. -/
def partsNormal : List Predicate → Prop
  | [] => True
  | part :: rest => part.Normal ∧ partsNormal rest

end

lemma norm_comparison {field : String} {op : ComparisonOperator} {value : Literal}
    (h : value ≠ .null) : (comparison field op value).norm = comparison field op value := by
  cases value with
  | null => exact absurd rfl h
  | boolean | integer | float | string => cases op <;> rfl

lemma chain_eq {connect : List Predicate → Predicate} {parts : List Predicate}
    (h : 2 ≤ parts.length) : chain connect parts = connect parts := by
  rcases parts with - | ⟨p, - | ⟨q, parts⟩⟩
  · cases h
  · exact absurd h (by simp)
  · rfl

mutual

/-- A normal form is its own. -/
lemma Normal.norm_eq : ∀ {p : Predicate}, p.Normal → p.norm = p
  | all parts, ⟨hlen, h⟩ => by rw [norm, partsNormal.norm_eq h, chain_eq hlen]
  | any parts, ⟨hlen, h⟩ => by rw [norm, partsNormal.norm_eq h, chain_eq hlen]
  | negation part, h => by rw [norm, Normal.norm_eq (p := part) h]
  | comparison field op value, ⟨_, h⟩ => norm_comparison h
  | oneOf _ _, _ | isNull _, _ => rfl

lemma partsNormal.norm_eq : ∀ {ps : List Predicate}, partsNormal ps → normParts ps = ps
  | [], _ => rfl
  | part :: rest, ⟨h, hrest⟩ => by rw [normParts, h.norm_eq, partsNormal.norm_eq hrest]

end

mutual

lemma Normal.expressible : ∀ {p : Predicate}, p.Normal → p.Expressible
  | all _, ⟨hlen, h⟩ | any _, ⟨hlen, h⟩ =>
    ⟨List.ne_nil_of_length_pos (Nat.lt_of_lt_of_le Nat.zero_lt_two hlen),
      partsNormal.expressible h⟩
  | negation part, h => Normal.expressible (p := part) h
  | comparison _ _ _, ⟨_, h⟩ => fun hnull => absurd hnull h
  | oneOf _ _, _ | isNull _, _ => trivial

lemma partsNormal.expressible : ∀ {ps : List Predicate}, partsNormal ps → partsExpressible ps
  | [], _ => trivial
  | _ :: _, ⟨h, hrest⟩ => ⟨h.expressible, partsNormal.expressible hrest⟩

end

/-! ### What is read is in normal form -/

/-- Some tokens refer to the field of a test, and its doubles are among them. -/
structure Occurs (tokens : List Token) (test : String × List Literal) : Prop where
  named : ∃ reference, .identifier reference ∈ tokens ∧ Names reference test.1
  floats : ∀ x, .float x ∈ test.2 → .literal (.float x) ∈ tokens

/-- A predicate in normal form whose tests occur in some tokens. -/
def Derives (tokens : List Token) (p : Predicate) : Prop :=
  p.Normal ∧ ∀ test ∈ p.tests, Occurs tokens test

/-- The same for the parts of a chain. -/
def PartsDerive (tokens : List Token) (ps : List Predicate) : Prop :=
  partsNormal ps ∧ ∀ test ∈ partTests ps, Occurs tokens test

variable {p : Predicate} {ps : List Predicate} {s t : List Token}

lemma Occurs.mono {test : String × List Literal} (h : Occurs s test) (hs : s ⊆ t) :
    Occurs t test := by
  obtain ⟨reference, hr, hn⟩ := h.named
  exact ⟨⟨reference, hs hr, hn⟩, fun x hx => hs (h.floats x hx)⟩

lemma Derives.mono (h : Derives s p) (hs : s ⊆ t) : Derives t p :=
  ⟨h.1, fun test ht => (h.2 test ht).mono hs⟩

lemma Derives.single (h : Derives s p) : PartsDerive s [p] :=
  ⟨⟨h.1, trivial⟩, fun test ht => h.2 test (by simpa [partTests] using ht)⟩

lemma Derives.cons {separator : Token} (hp : Derives s p) (hps : PartsDerive t ps) :
    PartsDerive (s ++ separator :: t) (p :: ps) := by
  refine ⟨⟨hp.1, hps.1⟩, fun test ht => ?_⟩
  rcases List.mem_append.1 ht with ht | ht
  · exact (hp.2 test ht).mono (List.subset_append_left ..)
  · exact (hps.2 test ht).mono
      (List.subset_append_of_subset_right _ (List.subset_cons_self ..))

lemma Names.isField {reference field : String} (h : Names reference field) : IsField field :=
  ⟨h.1, h.2.1⟩

/-- The only test of a predicate is that of a field that a reference names. -/
lemma derives_of_names {reference field : String} {values : List Literal} (hp : p.Normal)
    (ht : p.tests = [(field, values)]) (hr : .identifier reference ∈ t)
    (hn : Names reference field) (hv : ∀ x, .float x ∈ values → .literal (.float x) ∈ t) :
    Derives t p := by
  refine ⟨hp, fun test htest => ?_⟩
  rw [ht, List.mem_singleton] at htest
  subst htest
  exact ⟨⟨reference, hr, hn⟩, hv⟩

lemma Compares.derives {reference field : String} {op : ComparisonOperator} {value : Literal}
    (hc : Compares field op value p) (hr : .identifier reference ∈ t)
    (hv : .literal value ∈ t) (hn : Names reference field) : Derives t p := by
  cases hc with
  | isNull => exact derives_of_names hn.isField rfl hr hn nofun
  | isNotNull => exact derives_of_names hn.isField rfl hr hn nofun
  | comparison hne =>
    refine derives_of_names ⟨hn.isField, hne⟩ rfl hr hn fun x hx => ?_
    rwa [List.mem_singleton.1 hx]

lemma Values.literal_mem {value : Literal} : ∀ {v : Values}, value ∈ v.list →
    .literal value ∈ v.tokens
  | .last _, h => by rw [List.mem_singleton.1 h]; exact List.mem_cons_self
  | .more _ rest, h => by
    rcases List.mem_cons.1 h with rfl | h
    · exact List.mem_cons_self
    · exact List.mem_cons_of_mem _ (List.mem_cons_of_mem _ (literal_mem (v := rest) h))

lemma Enclosed.literal_mem {value : Literal} {list : Enclosed} (h : value ∈ list.values.list) :
    .literal value ∈ list.tokens :=
  List.mem_cons_of_mem _ (List.mem_append_left _ (Values.literal_mem h))

lemma Atom.derives {a : Atom} (h : a.Denotes p) : Derives a.tokens p := by
  cases h with
  | comparison hn hc => exact hc.derives (by simp [tokens]) (by simp [tokens]) hn
  | flipped hn hc => exact hc.derives (by simp [tokens]) (by simp [tokens]) hn
  | member hn =>
    refine derives_of_names hn.isField rfl (by simp [tokens]) hn fun x hx => ?_
    exact List.mem_cons_of_mem _ (List.mem_cons_of_mem _ (Enclosed.literal_mem hx))
  | nonMember hn =>
    refine derives_of_names hn.isField rfl (by simp [tokens]) hn fun x hx => ?_
    exact List.mem_cons_of_mem _ (List.mem_cons_of_mem _ (List.mem_cons_of_mem _
      (Enclosed.literal_mem hx)))
  | alone hn =>
    exact derives_of_names ⟨hn.isField, by simp⟩ rfl (by simp [tokens]) hn (by simp)

mutual

lemma Disjunction.derives {p : Predicate} :
    ∀ d : Disjunction, d.Denotes p → Derives d.tokens p
  | .last c, h => c.derives h
  | .more c d, h => by
    obtain ⟨first, others, hfirst, hothers, rfl⟩ := h
    obtain ⟨second, rest, rfl⟩ := hothers.exists_cons
    have hparts : PartsDerive (Disjunction.more c d).tokens (first :: second :: rest) :=
      (c.derives hfirst).cons (d.derivesParts hothers)
    exact ⟨⟨by simp, hparts.1⟩, hparts.2⟩

lemma Disjunction.derivesParts {ps : List Predicate} :
    ∀ d : Disjunction, d.Parts ps → PartsDerive d.tokens ps
  | .last c, h => by
    obtain ⟨p, hp, rfl⟩ := h
    exact (c.derives hp).single
  | .more c d, h => by
    obtain ⟨first, others, hfirst, hothers, rfl⟩ := h
    exact (c.derives hfirst).cons (d.derivesParts hothers)

lemma Conjunction.derives {p : Predicate} :
    ∀ c : Conjunction, c.Denotes p → Derives c.tokens p
  | .last n, h => n.derives h
  | .more n c, h => by
    obtain ⟨first, others, hfirst, hothers, rfl⟩ := h
    obtain ⟨second, rest, rfl⟩ := hothers.exists_cons
    have hparts : PartsDerive (Conjunction.more n c).tokens (first :: second :: rest) :=
      (n.derives hfirst).cons (c.derivesParts hothers)
    exact ⟨⟨by simp, hparts.1⟩, hparts.2⟩

lemma Conjunction.derivesParts {ps : List Predicate} :
    ∀ c : Conjunction, c.Parts ps → PartsDerive c.tokens ps
  | .last n, h => by
    obtain ⟨p, hp, rfl⟩ := h
    exact (n.derives hp).single
  | .more n c, h => by
    obtain ⟨first, others, hfirst, hothers, rfl⟩ := h
    exact (n.derives hfirst).cons (c.derivesParts hothers)

lemma Negation.derives {p : Predicate} : ∀ n : Negation, n.Denotes p → Derives n.tokens p
  | .not n, h => by
    obtain ⟨q, hq, rfl⟩ := h
    exact (n.derives hq).mono (List.subset_cons_self ..)
  | .primary q, h => q.derives h

lemma Primary.derives {p : Predicate} : ∀ q : Primary, q.Denotes p → Derives q.tokens p
  | .group d, h =>
    (d.derives h).mono fun _ ht => List.mem_cons_of_mem _ (List.mem_append_left _ ht)
  | .atom _, h => Atom.derives h

end

end ObjectGraph.Predicate
