/-
# Groups of equal elements

Elements can be grouped in two ways: one group for every element that equals no earlier one, with
all elements that equal it, or one group for every run of neighbours that are equal.  In a list
that is in order both are the same.
-/
import ObjectGraph.Proofs.StableSort
import Mathlib.Data.List.SplitBy

namespace ObjectGraph.Stable

open Std (OrientedCmp ReflCmp TransCmp)

variable {α β : Type} (order : α → α → Ordering)

/-- Whether two elements are in the same place of an order. -/
def same (a b : α) : Bool := order a b = .eq

/-- The elements that are in the place of no earlier one. -/
def firsts : List α → List α
  | [] => []
  | a :: rest => a :: (firsts rest).filter fun b => !same order a b

/-- One group for each place of an order, in the order of their first elements. -/
def classes (l : List α) : List (List α) :=
  (firsts order l).map fun a => l.filter (same order a)

/-- One group for every run of neighbours in the same place of an order. -/
def runs (l : List α) : List (List α) := l.splitBy (same order)

variable {order}

lemma firsts_sublist (l : List α) : (firsts order l).Sublist l := by
  induction l with
  | nil => exact .refl _
  | cons a rest ih => exact (List.filter_sublist.trans ih).cons_cons a

/-- A group starts with an element, if elements are in their own place. -/
lemma exists_cons_of_mem_classes {l group : List α} (hs : ∀ a, same order a a = true)
    (h : group ∈ classes order l) : ∃ first rest, group = first :: rest ∧ first ∈ l := by
  obtain ⟨a, ha, rfl⟩ := List.mem_map.1 h
  have hmem : a ∈ l.filter (same order a) :=
    List.mem_filter.2 ⟨(firsts_sublist l).subset ha, hs a⟩
  obtain ⟨first, rest, hgroup⟩ := List.exists_cons_of_ne_nil (List.ne_nil_of_mem hmem)
  have hfirst : first ∈ l.filter (same order a) := hgroup ▸ List.mem_cons_self
  exact ⟨first, rest, hgroup, List.mem_of_mem_filter hfirst⟩

/-- Leaving out whole places leaves out their first elements. -/
lemma filter_firsts {p : α → Bool} (hp : ∀ a b, same order a b = true → p a = p b) (l : List α) :
    (firsts order l).filter p = firsts order (l.filter p) := by
  induction l with
  | nil => rfl
  | cons a rest ih =>
    cases ha : p a with
    | true =>
      rw [firsts, List.filter_cons_of_pos ha, List.filter_cons_of_pos ha, firsts,
        List.filter_filter, ← ih, List.filter_filter]
      simp only [Bool.and_comm]
    | false =>
      have ha' : ¬ p a = true := by simp [ha]
      rw [firsts, List.filter_cons_of_neg ha', List.filter_cons_of_neg ha', List.filter_filter,
        ← ih]
      refine List.filter_congr fun b _ => ?_
      cases hab : same order a b with
      | false => simp
      | true => simp [← hp a b hab, ha]

lemma firsts_map (f : β → α) (l : List β) :
    firsts order (l.map f) = (firsts (fun a b => order (f a) (f b)) l).map f := by
  induction l with
  | nil => rfl
  | cons a rest ih =>
    simp only [List.map_cons, firsts, ih, List.filter_map]
    rfl

lemma classes_map (f : β → α) (l : List β) :
    classes order (l.map f)
      = (classes (fun a b => order (f a) (f b)) l).map (List.map f) := by
  simp only [classes, firsts_map, List.map_map]
  refine List.map_congr_left fun a _ => ?_
  simp only [Function.comp_apply, List.filter_map]
  rfl

variable [TransCmp order]

lemma same_self (a : α) : same order a a = true := by
  simp [same, ReflCmp.compare_self]

/-- Elements in the same place compare alike with every other one. -/
lemma same_congr {a b : α} (h : same order a b = true) (c : α) :
    same order a c = same order b c := by
  have hab : order a b = .eq := by simpa [same] using h
  simp only [same, TransCmp.congr_left hab]

lemma same_comm (a b : α) : same order a b = same order b a := by
  simp only [same, OrientedCmp.eq_comm]

/-- The first group holds what equals the first element, the others are those of what is left. -/
lemma classes_cons (a : α) (rest : List α) :
    classes order (a :: rest)
      = (a :: rest.filter (same order a)) ::
        classes order (rest.filter fun b => !same order a b) := by
  have hp : ∀ b c, same order b c = true → (!same order a b) = !same order a c := by
    intro b c h
    rw [same_comm a b, same_comm a c, same_congr h]
  simp only [classes, firsts, List.map_cons, List.filter_cons_of_pos (same_self a)]
  rw [filter_firsts hp]
  refine congrArg _ (List.map_congr_left fun b hb => ?_)
  have hab : same order a b = false := by
    have hmem := List.mem_filter.1 ((firsts_sublist _).subset hb)
    simpa using hmem.2
  have hba : ¬ same order b a = true := by simp [same_comm b a, hab]
  rw [List.filter_cons_of_neg hba, List.filter_filter]
  refine List.filter_congr fun c _ => ?_
  cases hbc : same order b c with
  | false => rfl
  | true => rw [same_comm a c, ← same_congr hbc, same_comm b a, hab]; rfl

/-- The group of a first element starts with it. -/
lemma head?_filter_of_mem_firsts {a : α} {l : List α} (h : a ∈ firsts order l) :
    (l.filter (same order a)).head? = some a := by
  induction l with
  | nil => cases h
  | cons b rest ih =>
    rcases List.mem_cons.1 h with rfl | h
    · rw [List.filter_cons_of_pos (same_self a)]
      rfl
    · obtain ⟨hfirst, hba⟩ := List.mem_filter.1 h
      have hab : ¬ same order a b = true := by
        rw [same_comm]
        simpa using hba
      rw [List.filter_cons_of_neg hab]
      exact ih hfirst

/-- The first elements of a sorted list are the first elements, sorted. -/
lemma firsts_sort (l : List α) : firsts order (sort order l) = sort order (firsts order l) := by
  refine eq_sort ((inOrder_sort l).sublist (firsts_sublist _)) fun a => ?_
  have hplace : ∀ b c, same order b c = true → same order a b = same order a c := by
    intro b c h
    rw [same_comm a b, same_comm a c, same_congr h]
  have hfirsts (l : List α) : alike order a (firsts order l) = firsts order (alike order a l) :=
    filter_firsts hplace l
  rw [hfirsts, hfirsts, alike_sort]

/-- The groups of a sorted list are the groups in the order of their first elements. -/
lemma classes_sort (l : List α) :
    classes order (sort order l)
      = (sort order (firsts order l)).map fun a => l.filter (same order a) := by
  rw [classes, firsts_sort]
  exact List.map_congr_left fun a _ => alike_sort a l

/-- In a list that is in order the elements equal to the first one stand in front. -/
lemma filter_append_filter {a : α} {l : List α} (h : InOrder order (a :: l)) :
    l.filter (same order a) ++ (l.filter fun b => !same order a b) = l := by
  induction l with
  | nil => rfl
  | cons b rest ih =>
    obtain ⟨ha, hb, hrest⟩ := by simpa only [InOrder, List.pairwise_cons] using h
    cases hab : same order a b with
    | true =>
      rw [List.filter_cons_of_pos hab, List.filter_cons_of_neg (by simp [hab]), List.cons_append,
        ih (List.pairwise_cons.2 ⟨fun c hc => ha c (List.mem_cons_of_mem b hc), hrest⟩)]
    | false =>
      -- What comes after an element greater than the first one is greater, too.
      have hlt : order a b = .lt := by
        have hle := ha b List.mem_cons_self
        simp only [same, decide_eq_false_iff_not] at hab
        cases ho : order a b <;> simp_all
      have hnone : ∀ c ∈ b :: rest, same order a c = false := by
        intro c hc
        rcases List.mem_cons.1 hc with rfl | hc
        · exact hab
        · have hac : order a c = .lt := TransCmp.lt_of_lt_of_isLE hlt (hb c hc)
          simp [same, hac]
      rw [List.filter_eq_nil_iff.2 (by simpa using hnone), List.nil_append,
        List.filter_eq_self.2 (by simpa using hnone)]

/-- In a list that is in order, equal elements are neighbours. -/
theorem classes_eq_runs {l : List α} (h : InOrder order l) : classes order l = runs order l := by
  -- What the first group leaves is shorter, but not a tail of the list.
  induction hn : l.length using Nat.strong_induction_on generalizing l with
  | _ n ih =>
    cases l with
    | nil => rfl
    | cons a rest =>
      have hothers : InOrder order (rest.filter fun b => !same order a b) :=
        (List.pairwise_cons.1 h).2.filter _
      have hlength : (rest.filter fun b => !same order a b).length < n := by
        have hle := List.length_filter_le (fun b => !same order a b) rest
        simp only [List.length_cons] at hn
        omega
      rw [classes_cons, ih _ hlength hothers rfl]
      conv_rhs => rw [← filter_append_filter h]
      have hchain : (a :: rest.filter (same order a)).IsChain fun b c => same order b c = true := by
        refine List.Pairwise.isChain (List.pairwise_cons.2 ⟨fun b hb => ?_, ?_⟩)
        · exact (List.mem_filter.1 hb).2
        · refine List.pairwise_of_forall_mem_list fun b hb c hc => ?_
          rw [← same_congr (List.mem_filter.1 hb).2]
          exact (List.mem_filter.1 hc).2
      rw [runs, runs, ← List.cons_append, List.splitBy_append, List.splitBy_of_isChain _ hchain]
      · rfl
      · simp
      · intro b hb c hc
        have hc' := (List.mem_filter.1 (List.mem_of_mem_head? hc)).2
        have hab : same order a b = true := by
          rcases List.mem_cons.1 (List.mem_of_mem_getLast? hb) with rfl | hb
          · exact same_self b
          · exact (List.mem_filter.1 hb).2
        rw [← same_congr hab]
        simpa using hc'

end ObjectGraph.Stable
