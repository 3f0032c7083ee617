/-
# Stable sorting

A stable sort is determined by two facts: its result is in order, and it does not change the
order of the elements that are equal to any given one.  From these follow the laws that moving a
sort past another operation needs: a sort commutes with a filter and with a map, and sorting by
one order after another is sorting once by the two together.
-/
import ObjectGraph.Memory.Order
import Mathlib.Tactic.Lemma

namespace ObjectGraph.Stable

open Std (OrientedCmp ReflCmp TransCmp)

variable {α β : Type} {order : α → α → Ordering}

/-! ### What sorting keeps -/

lemma perm_insertLast (a : α) (l : List α) : (insertLast order a l).Perm (a :: l) := by
  induction l with
  | nil => exact .refl _
  | cons b rest ih =>
    simp only [insertLast]
    split
    · exact (ih.cons b).trans (.swap a b rest)
    · exact .refl _

lemma perm_foldl_insertLast (l sorted : List α) :
    (l.foldl (fun sorted a => insertLast order a sorted) sorted).Perm (l ++ sorted) := by
  induction l generalizing sorted with
  | nil => exact .refl _
  | cons a rest ih =>
    refine (ih (insertLast order a sorted)).trans ?_
    refine ((perm_insertLast a sorted).append_left rest).trans ?_
    exact List.perm_middle

lemma perm_sort (l : List α) : (sort order l).Perm l := by
  refine (List.reverse_perm _).trans ?_
  have h : (l.foldl (fun sorted a => insertLast order a sorted) []).Perm (l ++ []) :=
    perm_foldl_insertLast l []
  rwa [List.append_nil] at h

@[simp] lemma mem_sort {l : List α} {a : α} : a ∈ sort order l ↔ a ∈ l :=
  (perm_sort l).mem_iff

@[simp] lemma length_sort (l : List α) : (sort order l).length = l.length :=
  (perm_sort l).length_eq

lemma map_insertLast (f : β → α) (b : β) (l : List β) :
    insertLast order (f b) (l.map f) = (insertLast (fun x y => order (f x) (f y)) b l).map f := by
  induction l with
  | nil => rfl
  | cons c rest ih =>
    simp only [List.map_cons, insertLast]
    split
    · rw [ih, List.map_cons]
    · rfl

/-- Sorting the images of elements is sorting the elements by the order of their images. -/
lemma sort_map (f : β → α) (l : List β) :
    sort order (l.map f) = (sort (fun x y => order (f x) (f y)) l).map f := by
  have h : ∀ sorted : List β,
      (l.map f).foldl (fun sorted a => insertLast order a sorted) (sorted.map f)
        = (l.foldl (fun sorted b => insertLast (fun x y => order (f x) (f y)) b sorted)
            sorted).map f := by
    induction l with
    | nil => exact fun _ => rfl
    | cons b rest ih =>
      intro sorted
      rw [List.map_cons, List.foldl_cons, List.foldl_cons, map_insertLast, ih]
  rw [sort, sort, List.map_reverse]
  exact congrArg List.reverse (h [])

/-! ### Sorting by a total preorder -/

/-- The elements that are equal to `a`, in the order in which they stand. -/
def alike (order : α → α → Ordering) (a : α) (l : List α) : List α :=
  l.filter fun b => order a b = .eq

lemma alike_cons (a b : α) (l : List α) :
    alike order a (b :: l) = if order a b = .eq then b :: alike order a l else alike order a l := by
  simp only [alike, List.filter_cons, decide_eq_true_eq]

variable [TransCmp order]

/-- No element of a list is greater than a later one. -/
def InOrder (order : α → α → Ordering) (l : List α) : Prop :=
  l.Pairwise fun a b => (order a b).isLE

lemma insertLast_of_forall {a : α} {l : List α} (h : ∀ b ∈ l, (order b a).isLE) :
    insertLast order a l = a :: l := by
  cases l with
  | nil => rfl
  | cons b rest =>
    have hb : order a b ≠ .lt := OrientedCmp.not_lt_of_isLE (h b (by simp))
    simp only [insertLast, hb, if_false]

lemma inOrder_insertLast {a : α} {l : List α} (h : InOrder order l.reverse) :
    InOrder order (insertLast order a l).reverse := by
  simp only [InOrder, List.pairwise_reverse] at h ⊢
  induction l with
  | nil => simp [insertLast]
  | cons b rest ih =>
    obtain ⟨hb, hrest⟩ := List.pairwise_cons.1 h
    simp only [insertLast]
    split
    · rename_i hlt
      refine List.pairwise_cons.2 ⟨fun c hc => ?_, ih hrest⟩
      rcases List.mem_cons.1 ((perm_insertLast a rest).mem_iff.1 hc) with rfl | hc
      · simp [hlt]
      · exact hb c hc
    · rename_i hlt
      have hba : (order b a).isLE := by
        rw [← OrientedCmp.isGE_iff_isLE]
        cases hab : order a b <;> simp_all
      refine List.pairwise_cons.2 ⟨fun c hc => ?_, h⟩
      rcases List.mem_cons.1 hc with rfl | hc
      · exact hba
      · exact TransCmp.isLE_trans (hb c hc) hba

lemma inOrder_sort (l : List α) : InOrder order (sort order l) := by
  have h : ∀ sorted : List α, InOrder order sorted.reverse →
      InOrder order (l.foldl (fun sorted a => insertLast order a sorted) sorted).reverse := by
    induction l with
    | nil => exact fun _ h => h
    | cons a rest ih => exact fun sorted h => ih _ (inOrder_insertLast h)
  exact h [] .nil

lemma filter_insertLast {p : α → Bool} {a : α} {l : List α} (h : InOrder order l.reverse) :
    (insertLast order a l).filter p
      = if p a then insertLast order a (l.filter p) else l.filter p := by
  simp only [InOrder, List.pairwise_reverse] at h
  induction l with
  | nil => simp [insertLast, List.filter_cons]
  | cons b rest ih =>
    obtain ⟨hb, hrest⟩ := List.pairwise_cons.1 h
    simp only [insertLast]
    split
    · rename_i hlt
      rw [List.filter_cons, ih hrest]
      by_cases hpb : p b <;> by_cases hpa : p a <;> simp [hpa, hpb, insertLast, hlt]
    · rename_i hlt
      have hba : (order b a).isLE := by
        rw [← OrientedCmp.isGE_iff_isLE]
        cases hab : order a b <;> simp_all
      -- Nothing behind `b` is greater than `a`, so `a` stays in front whatever is left out.
      have hall : ∀ c ∈ (b :: rest).filter p, (order c a).isLE := by
        intro c hc
        rcases List.mem_cons.1 (List.mem_filter.1 hc).1 with rfl | hc
        · exact hba
        · exact TransCmp.isLE_trans (hb c hc) hba
      rw [List.filter_cons, insertLast_of_forall hall]

/-- Sorting commutes with leaving elements out. -/
lemma filter_sort (p : α → Bool) (l : List α) :
    (sort order l).filter p = sort order (l.filter p) := by
  have h : ∀ sorted : List α, InOrder order sorted.reverse →
      (l.foldl (fun sorted a => insertLast order a sorted) sorted).filter p
        = (l.filter p).foldl (fun sorted a => insertLast order a sorted) (sorted.filter p) := by
    induction l with
    | nil => exact fun _ _ => rfl
    | cons a rest ih =>
      intro sorted hs
      rw [List.foldl_cons, ih _ (inOrder_insertLast hs), filter_insertLast hs, List.filter_cons]
      split <;> rfl
  rw [sort, List.filter_reverse, h [] .nil]
  rfl

/-- A list that is in order does not change when it is sorted. -/
lemma sort_of_inOrder {l : List α} (h : InOrder order l) : sort order l = l := by
  have hfold : ∀ sorted : List α, InOrder order (sorted.reverse ++ l) →
      l.foldl (fun sorted a => insertLast order a sorted) sorted = l.reverse ++ sorted := by
    clear h
    induction l with
    | nil => exact fun _ _ => rfl
    | cons a rest ih =>
      intro sorted hs
      have hfront : insertLast order a sorted = a :: sorted := by
        refine insertLast_of_forall fun b hb => ?_
        exact (List.pairwise_append.1 hs).2.2 b (by simpa using hb) a (by simp)
      rw [List.foldl_cons, hfront, ih (a :: sorted) (by simpa using hs)]
      simp
  rw [sort, hfold [] (by simpa using h)]
  simp

lemma alike_sort (a : α) (l : List α) : alike order a (sort order l) = alike order a l := by
  rw [alike, filter_sort]
  refine sort_of_inOrder ?_
  refine List.pairwise_iff_forall_sublist.2 fun {b c} hs => ?_
  have hb : order a b = .eq := by simpa using (List.mem_filter.1 (hs.subset (by simp))).2
  have hc : order a c = .eq := by simpa using (List.mem_filter.1 (hs.subset (by simp))).2
  rw [TransCmp.congr_left (OrientedCmp.eq_symm hb), hc]
  rfl

lemma self_mem_alike {a : α} {l : List α} : a ∈ alike order a l ↔ a ∈ l := by
  have hself : order a a = .eq := ReflCmp.compare_self
  rw [alike, List.mem_filter, hself, decide_eq_true rfl, and_iff_left rfl]

lemma InOrder.head_isLE {a b : α} {l : List α} (h : InOrder order (a :: l)) (hb : b ∈ a :: l) :
    (order a b).isLE := by
  rcases List.mem_cons.1 hb with rfl | hb
  · exact ReflCmp.isLE_rfl
  · exact (List.pairwise_cons.1 h).1 b hb

/-- Two lists that are in order are the same if they have the same elements equal to each one, in
the same order. -/
lemma eq_of_alike {l l' : List α} (h : InOrder order l) (h' : InOrder order l')
    (ha : ∀ a, alike order a l = alike order a l') : l = l' := by
  have hmem : ∀ c, c ∈ l ↔ c ∈ l' := fun c => by
    rw [← @self_mem_alike _ order, ha c, self_mem_alike]
  induction l generalizing l' with
  | nil =>
    have hnone : ∀ c, c ∉ l' := fun c hc => List.not_mem_nil ((hmem c).2 hc)
    exact (List.eq_nil_iff_forall_not_mem.2 hnone).symm
  | cons a rest ih =>
    have hleft : a ∈ l' := (hmem a).1 List.mem_cons_self
    obtain ⟨b, rest', rfl⟩ := List.exists_cons_of_ne_nil (List.ne_nil_of_mem hleft)
    -- Each head occurs in the other list, hence they are equal in the order.
    have hab : order a b = .eq := OrientedCmp.isLE_antisymm
      (h.head_isLE ((hmem b).2 List.mem_cons_self)) (h'.head_isLE hleft)
    have hself : order a a = .eq := ReflCmp.compare_self
    have hheads := ha a
    rw [alike_cons, alike_cons, if_pos hself, if_pos hab] at hheads
    obtain ⟨rfl, -⟩ := List.cons.inj hheads
    have hrest : ∀ c, alike order c rest = alike order c rest' := by
      intro c
      have hc := ha c
      rw [alike_cons, alike_cons] at hc
      split at hc
      · exact (List.cons.inj hc).2
      · exact hc
    refine congrArg (a :: ·) (ih h.of_cons h'.of_cons hrest fun c => ?_)
    rw [← @self_mem_alike _ order, hrest c, self_mem_alike]

/-- A list in order with the same elements equal to each one as another list is that list
sorted. -/
lemma eq_sort {l sorted : List α} (h : InOrder order sorted)
    (ha : ∀ a, alike order a sorted = alike order a l) : sorted = sort order l :=
  eq_of_alike h (inOrder_sort l) fun a => (ha a).trans (alike_sort a l).symm

/-! ### Orders that are total preorders on a list -/

/-- Among the elements of a list, an order is a total preorder. -/
structure TotalOn (order : α → α → Ordering) (l : List α) : Prop where
  swap : ∀ a ∈ l, ∀ b ∈ l, order b a = (order a b).swap
  trans : ∀ a ∈ l, ∀ b ∈ l, ∀ c ∈ l, (order a b).isLE → (order b c).isLE → (order a c).isLE

section TotalOn

variable {order : α → α → Ordering} {l : List α}

lemma TotalOn.transCmp (h : TotalOn order l) :
    TransCmp fun a b : { a // a ∈ l } => order a.1 b.1 where
  eq_swap {a b} := h.swap b.1 b.2 a.1 a.2
  isLE_trans {a b c} := h.trans a.1 a.2 b.1 b.2 c.1 c.2

/-- Sorting a list is sorting its elements as such. -/
lemma sort_eq_map_attach (order : α → α → Ordering) (l : List α) :
    sort order l = (sort (fun a b : { a // a ∈ l } => order a.1 b.1) l.attach).map Subtype.val :=
  calc sort order l = sort order (l.attach.map Subtype.val) := by rw [List.attach_map_subtype_val]
    _ = _ := sort_map Subtype.val l.attach

lemma TotalOn.inOrder_sort (h : TotalOn order l) : InOrder order (sort order l) := by
  have := h.transCmp
  rw [sort_eq_map_attach, InOrder, List.pairwise_map]
  exact Stable.inOrder_sort l.attach

lemma TotalOn.alike_sort (h : TotalOn order l) {a : α} (ha : a ∈ l) :
    alike order a (sort order l) = alike order a l := by
  have := h.transCmp
  let orderOn (a b : { a // a ∈ l }) : Ordering := order a.1 b.1
  have hattach : alike orderOn ⟨a, ha⟩ (sort orderOn l.attach) = alike orderOn ⟨a, ha⟩ l.attach :=
    Stable.alike_sort ⟨a, ha⟩ l.attach
  have hmap (elements : List { a // a ∈ l }) : alike order a (elements.map Subtype.val) =
      (alike orderOn ⟨a, ha⟩ elements).map Subtype.val :=
    List.filter_map
  rw [sort_eq_map_attach, hmap, hattach, ← hmap, List.attach_map_subtype_val]

/-- A list that is in order and has the same elements equal to each one, in the same order, is the
list sorted. -/
lemma TotalOn.eq_sort (h : TotalOn order l) {sorted : List α} (hperm : sorted.Perm l)
    (horder : InOrder order sorted)
    (halike : ∀ a ∈ l, alike order a sorted = alike order a l) : sorted = sort order l := by
  have := h.transCmp
  let orderOn (a b : { a // a ∈ l }) : Ordering := order a.1 b.1
  obtain ⟨elements, rfl⟩ : ∃ elements : List { a // a ∈ l }, elements.map Subtype.val = sorted :=
    ⟨sorted.attachWith (· ∈ l) fun a ha => hperm.subset ha, List.attachWith_map_subtype_val ..⟩
  have hmap (a : { a // a ∈ l }) (elements : List { a // a ∈ l }) :
      alike order a.1 (elements.map Subtype.val) = (alike orderOn a elements).map Subtype.val :=
    List.filter_map
  have hsorted : elements = sort orderOn l.attach := by
    refine Stable.eq_sort (List.pairwise_map.1 horder) fun a => ?_
    have hattach := hmap a l.attach
    rw [List.attach_map_subtype_val] at hattach
    have hsame := halike a.1 a.2
    rw [hmap, hattach] at hsame
    exact (List.map_inj_right fun _ _ => Subtype.ext).1 hsame
  rw [sort_eq_map_attach, hsorted]

end TotalOn

/-! ### Other ways of sorting -/

/-- What every way of sorting promises.  It moves elements and does nothing else to them, and by an
order that is a total preorder on the list it sorts stably.  By any other order it may leave the
elements in whatever order it likes, or give up. -/
structure Sorting (α : Type) where
  /-- The sorted list, or none where the sort gives up. -/
  sort : (α → α → Ordering) → List α → Option (List α)
  /-- No element is lost or made up. -/
  perm : ∀ {order l sorted}, sort order l = some sorted → sorted.Perm l
  /-- A total preorder is no reason to give up. -/
  isSome : ∀ {order l}, TotalOn order l → (sort order l).isSome
  /-- No element is greater than a later one. -/
  inOrder : ∀ {order l sorted}, TotalOn order l → sort order l = some sorted → InOrder order sorted
  /-- Elements that are equal keep their order. -/
  alike : ∀ {order l sorted}, TotalOn order l → sort order l = some sorted →
    ∀ a ∈ l, Stable.alike order a sorted = Stable.alike order a l

namespace Sorting

/-- Moving every element past those that are greater. -/
def insertion : Sorting α where
  sort order l := some (Stable.sort order l)
  perm h := Option.some.inj h ▸ perm_sort _
  isSome _ := rfl
  inOrder ht h := Option.some.inj h ▸ ht.inOrder_sort
  alike ht h _ ha := Option.some.inj h ▸ ht.alike_sort ha

/-- By a total preorder all ways of sorting have the same result. -/
lemma sort_eq (sorting : Sorting α) {order : α → α → Ordering} {l : List α}
    (h : TotalOn order l) : sorting.sort order l = some (Stable.sort order l) := by
  obtain ⟨sorted, hs⟩ := Option.isSome_iff_exists.1 (sorting.isSome h)
  rw [hs, h.eq_sort (sorting.perm hs) (sorting.inOrder h hs) (sorting.alike h hs)]

end Sorting

section TwoOrders

variable {first second : α → α → Ordering}

lemma compareLex_eq_iff {a b : α} :
    compareLex first second a b = .eq ↔ first a b = .eq ∧ second a b = .eq := by
  simp only [compareLex]
  cases first a b <;> simp

lemma alike_compareLex (a : α) (l : List α) :
    alike (compareLex first second) a l = alike second a (alike first a l) := by
  simp only [alike, List.filter_filter, compareLex_eq_iff, Bool.decide_and, Bool.and_comm]

lemma alike_comm (a : α) (l : List α) :
    alike second a (alike first a l) = alike first a (alike second a l) := by
  simp only [alike, List.filter_filter, Bool.and_comm]

variable [TransCmp first] [TransCmp second]

lemma inOrder_sort_sort (l : List α) :
    InOrder (compareLex first second) (sort first (sort second l)) := by
  refine List.pairwise_iff_forall_sublist.2 fun {a b} hs => ?_
  have hle : (first a b).isLE := List.pairwise_iff_forall_sublist.1 (inOrder_sort _) hs
  rw [compareLex, Ordering.isLE_then_iff_and]
  refine ⟨hle, ?_⟩
  rcases Ordering.isLE_iff_eq_lt_or_eq_eq.1 hle with hlt | heq
  · exact .inl hlt
  · -- The two are equal in the first order, hence they stand as the second sort left them.
    right
    have hsub : [a, b].Sublist (alike first a (sort second l)) := by
      have ha : alike first a [a, b] = [a, b] := by simp [alike, ReflCmp.compare_self, heq]
      have hsort : alike first a (sort first (sort second l)) = alike first a (sort second l) :=
        alike_sort a (sort second l)
      rw [← hsort, ← ha]
      exact hs.filter _
    exact List.pairwise_iff_forall_sublist.1 ((inOrder_sort l).filter _) hsub

/-- Sorting by one order and then by another is sorting by the second one, and by the first
where the second finds no difference. -/
theorem sort_sort (l : List α) : sort first (sort second l) = sort (compareLex first second) l := by
  refine eq_sort (inOrder_sort_sort l) fun a => ?_
  rw [alike_compareLex, alike_sort, alike_comm, alike_sort, alike_comm, alike_compareLex]

end TwoOrders

end ObjectGraph.Stable
