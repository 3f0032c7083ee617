/-
# Elements that sorting brings together

An integer and a double are compared as doubles, so an integer may be told neither from a double
nor the double from the next integer.  A sort by such an order need not leave its result in order.
It still brings together what is equal in a finer sense, unless an element stands between two equal
ones that the order does not tell from them.

The invariant that carries this speaks of inversions.  If a smaller element has been left behind a
greater one, the greater one was followed by something that the order does not tell from it.
-/
import ObjectGraph.Proofs.StableSort
import Mathlib.Data.List.Basic
import Mathlib.Data.List.Induction

namespace ObjectGraph.Stable

variable {α : Type} {order : α → α → Ordering} {equal : α → α → Prop}

/-- An order respects an equality.  Being smaller is transitive; not being told apart need not
be. -/
structure Respects (order : α → α → Ordering) (equal : α → α → Prop) : Prop where
  equivalence : Equivalence equal
  congr : ∀ {a b}, equal a b → ∀ c, order a c = order b c
  swap : ∀ a b, order b a = (order a b).swap
  trans : ∀ {a b c}, order a b = .lt → order b c = .lt → order a c = .lt

namespace Respects

variable {a b c : α}

lemma congr_right (h : Respects order equal) (hab : equal a b) (c : α) : order c a = order c b := by
  rw [h.swap a c, h.swap b c, h.congr hab]

lemma eq_of_equal (h : Respects order equal) (hab : equal a b) : order a b = .eq := by
  have hself : order b b = (order b b).swap := h.swap b b
  rw [h.congr hab]
  cases hbb : order b b <;> simp_all

lemma gt_of_lt (h : Respects order equal) (hab : order a b = .lt) : order b a = .gt := by
  rw [h.swap a b, hab]
  rfl

lemma lt_of_gt (h : Respects order equal) (hab : order a b = .gt) : order b a = .lt := by
  rw [h.swap a b, hab]
  rfl

end Respects

/-! ### Where an element is put -/

lemma exists_insertLast (order : α → α → Ordering) (a : α) (l : List α) : ∃ front back,
    l = front ++ back ∧ insertLast order a l = front ++ a :: back ∧
      (∀ b ∈ front, order a b = .lt) ∧ ∀ b ∈ back.head?, order a b ≠ .lt := by
  induction l with
  | nil => exact ⟨[], [], rfl, rfl, by simp, by simp⟩
  | cons b rest ih =>
    by_cases hlt : order a b = .lt
    · obtain ⟨front, back, rfl, hinsert, hfront, hback⟩ := ih
      refine ⟨b :: front, back, rfl, ?_, List.forall_mem_cons.2 ⟨hlt, hfront⟩, hback⟩
      rw [insertLast, if_pos hlt, hinsert]
      rfl
    · exact ⟨[], b :: rest, rfl, by rw [insertLast, if_neg hlt]; rfl, by simp, by simpa using hlt⟩

/-- The last element is put before those that are greater, up to one that is not. -/
lemma exists_sort_concat (order : α → α → Ordering) (before : List α) (a : α) : ∃ l r,
    sort order before = l ++ r ∧ sort order (before ++ [a]) = l ++ a :: r ∧
      (∀ b ∈ r, order a b = .lt) ∧ ∀ rest w, l = rest ++ [w] → order a w ≠ .lt := by
  obtain ⟨front, back, hsplit, hinsert, hfront, hback⟩ :=
    exists_insertLast order a (before.foldl (fun sorted a => insertLast order a sorted) [])
  refine ⟨back.reverse, front.reverse, ?_, ?_, by simpa using hfront, ?_⟩
  · rw [sort, hsplit, List.reverse_append]
  · rw [sort, List.foldl_append, List.foldl_cons, List.foldl_nil, hinsert]
    simp
  · intro rest w hlast
    obtain rfl : back = w :: rest.reverse := by
      rw [← List.reverse_reverse back, hlast]
      simp
    exact hback w rfl

/-- What is found in a list with one more element is found without it or has it. -/
lemma sublist_insert {t l r : List α} {a : α} (h : t.Sublist (l ++ a :: r)) :
    t.Sublist (l ++ r) ∨ ∃ t₁ t₂, t = t₁ ++ a :: t₂ ∧ t₁.Sublist l ∧ t₂.Sublist r := by
  obtain ⟨t₁, t₂, rfl, h₁, h₂⟩ := List.sublist_append_iff.1 h
  rcases List.sublist_cons_iff.1 h₂ with hr | ⟨rest, rfl, hr⟩
  · exact .inl (h₁.append hr)
  · exact .inr ⟨t₁, rest, rfl, h₁, hr⟩

lemma pair_sublist_insert {l r : List α} {a x y : α} (h : [x, y].Sublist (l ++ a :: r)) :
    [x, y].Sublist (l ++ r) ∨ (x ∈ l ∧ y = a) ∨ (x = a ∧ y ∈ r) := by
  rcases sublist_insert h with h | ⟨t₁, t₂, heq, h₁, h₂⟩
  · exact .inl h
  · match t₁, heq with
    | [], heq =>
      obtain ⟨rfl, rfl⟩ := List.cons.inj heq
      exact .inr (.inr ⟨rfl, List.singleton_sublist.1 h₂⟩)
    | [_], heq =>
      simp only [List.cons_append, List.nil_append, List.cons.injEq] at heq
      obtain ⟨rfl, rfl, -⟩ := heq
      exact .inr (.inl ⟨List.singleton_sublist.1 h₁, rfl⟩)
    | _ :: _ :: _, heq => simp at heq

lemma triple_sublist_insert {l r : List α} {a x y z : α}
    (h : [x, y, z].Sublist (l ++ a :: r)) :
    [x, y, z].Sublist (l ++ r) ∨ (x = a ∧ z ∈ r) ∨ (x ∈ l ∧ y = a ∧ z ∈ r) ∨
      ([x, y].Sublist l ∧ z = a) := by
  rcases sublist_insert h with h | ⟨t₁, t₂, heq, h₁, h₂⟩
  · exact .inl h
  · match t₁, heq with
    | [], heq =>
      obtain ⟨rfl, rfl⟩ := List.cons.inj heq
      exact .inr (.inl ⟨rfl, h₂.subset (by simp)⟩)
    | [_], heq =>
      simp only [List.cons_append, List.nil_append, List.cons.injEq] at heq
      obtain ⟨rfl, rfl, rfl⟩ := heq
      exact .inr (.inr (.inl ⟨List.singleton_sublist.1 h₁, rfl, List.singleton_sublist.1 h₂⟩))
    | [_, _], heq =>
      simp only [List.cons_append, List.nil_append, List.cons.injEq] at heq
      obtain ⟨rfl, rfl, rfl, -⟩ := heq
      exact .inr (.inr (.inr ⟨h₁, rfl⟩))
    | _ :: _ :: _ :: _, heq => simp at heq

/-- An element of a list is the last one or stands before it. -/
lemma exists_last {l : List α} {x : α} (hx : x ∈ l) :
    ∃ rest w, l = rest ++ [w] ∧ (x = w ∨ [x, w].Sublist l) := by
  rcases List.eq_nil_or_concat' l with rfl | ⟨rest, w, rfl⟩
  · cases hx
  · refine ⟨rest, w, rfl, ?_⟩
    rcases List.mem_append.1 hx with hx | hx
    · exact .inr ((List.singleton_sublist.2 hx).append (List.Sublist.refl [w]))
    · exact .inl (List.mem_singleton.1 hx)

/-! ### Pairs that stay as they are -/

section Sorting

variable {l : List α} {x y : α}

/-- Elements that the order does not tell apart stand as they stood before. -/
lemma pair_sublist_of_sort (h : [x, y].Sublist (sort order l)) (hxy : order x y = .eq) :
    [x, y].Sublist l := by
  induction l using List.reverseRecOn with
  | nil => exact h
  | append_singleton before a ih =>
    obtain ⟨l, r, hbefore, hsort, hr, -⟩ := exists_sort_concat order before a
    rw [hsort] at h
    rcases pair_sublist_insert h with h | ⟨hx, rfl⟩ | ⟨rfl, hy⟩
    · exact (ih (hbefore ▸ h)).trans (List.sublist_append_left before [a])
    · have hmem : x ∈ before := mem_sort.1 (hbefore ▸ List.mem_append_left r hx)
      exact (List.singleton_sublist.2 hmem).append (List.Sublist.refl [y])
    · rw [hr y hy] at hxy
      cases hxy

/-- Elements of which no later one is smaller are found in the sorted list as well. -/
lemma sublist_sort {t : List α} (h : t.Sublist l) (ht : t.Pairwise fun x y => order y x ≠ .lt) :
    t.Sublist (sort order l) := by
  induction l using List.reverseRecOn generalizing t with
  | nil => exact h
  | append_singleton before a ih =>
    obtain ⟨l, r, hbefore, hsort, hr, -⟩ := exists_sort_concat order before a
    rw [hsort]
    obtain ⟨first, last, rfl, hfirst, hlast⟩ := List.sublist_append_iff.1 h
    have hfound : first.Sublist (l ++ r) :=
      hbefore ▸ ih hfirst (List.pairwise_append.1 ht).1
    rcases List.sublist_singleton.1 hlast with rfl | rfl
    · rw [List.append_nil]
      exact hfound.trans ((List.Sublist.refl l).append (List.sublist_cons_self a r))
    · -- none of them is greater than the last one, so it is put behind all of them
      obtain ⟨u, v, rfl, hu, hv⟩ := List.sublist_append_iff.1 hfound
      have hpass := (List.pairwise_append.1 ht).2.2
      obtain rfl : v = [] := by
        refine List.eq_nil_iff_forall_not_mem.2 fun b hb => ?_
        exact hpass b (List.mem_append_right u hb) a (by simp) (hr b (hv.subset hb))
      rw [List.append_nil]
      exact hu.append (List.singleton_sublist.2 List.mem_cons_self)

/-! ### Inversions -/

/-- If a smaller element stands behind a greater one, it was held up by one that the order does
not tell from the greater one, and which is not equal to it. -/
lemma exists_between_of_inversion (hr : Respects order equal) (h : [x, y].Sublist (sort order l))
    (hlt : order y x = .lt) : ∃ w, [x, w].Sublist l ∧ order x w = .eq ∧ ¬ equal x w := by
  induction l using List.reverseRecOn generalizing y with
  | nil => cases h
  | append_singleton before a ih =>
    obtain ⟨l, r, hbefore, hsort, hbehind, hlast⟩ := exists_sort_concat order before a
    have hmore {w : α} (h : [x, w].Sublist before) : [x, w].Sublist (before ++ [a]) :=
      h.trans (List.sublist_append_left before [a])
    rw [hsort] at h
    rcases pair_sublist_insert h with h | ⟨hx, rfl⟩ | ⟨rfl, hy⟩
    · obtain ⟨w, hw, heq, hne⟩ := ih (hbefore ▸ h) hlt
      exact ⟨w, hmore hw, heq, hne⟩
    · -- `w` is what the new element was put behind
      obtain ⟨rest, w, rfl, hxw⟩ := exists_last hx
      have hw : order y w ≠ .lt := hlast rest w rfl
      have hpair : [x, w].Sublist (sort order before) := by
        rcases hxw with rfl | hxw
        · exact absurd hlt hw
        · exact hbefore ▸ hxw.trans (List.sublist_append_left _ r)
      cases hxwo : order x w with
      | lt => exact absurd (hr.trans hlt hxwo) hw
      | eq =>
        refine ⟨w, hmore (pair_sublist_of_sort hpair hxwo), hxwo, fun hequal => hw ?_⟩
        rw [← hr.congr_right hequal, hlt]
      | gt =>
        obtain ⟨v, hv, heq, hne⟩ := ih hpair (hr.lt_of_gt hxwo)
        exact ⟨v, hmore hv, heq, hne⟩
    · have hgt := hr.gt_of_lt hlt
      rw [hbehind y hy] at hgt
      cases hgt

end Sorting

/-! ### Equal elements -/

/-- Between equal elements there are only elements that equal them. -/
def Together (equal : α → α → Prop) (l : List α) : Prop :=
  ∀ a b c, [a, b, c].Sublist l → equal a c → equal a b

section Cons

variable {l : List α} {a b : α}

lemma Together.of_cons (h : Together equal (a :: l)) : Together equal l :=
  fun x y z hxyz => h x y z (hxyz.trans (List.sublist_cons_self a l))

lemma together_cons_of_equal (htrans : ∀ {a b c}, equal a b → equal b c → equal a c)
    (hab : equal a b) (hba : equal b a) :
    Together equal (a :: b :: l) ↔ Together equal (b :: l) := by
  refine ⟨Together.of_cons, fun h x y z hxyz hxz => ?_⟩
  rcases List.sublist_cons_iff.1 hxyz with hxyz | ⟨_, heq, hyz⟩
  · exact h x y z hxyz hxz
  · obtain ⟨rfl, rfl⟩ := List.cons.inj heq
    rcases List.sublist_cons_iff.1 hyz with hyz | ⟨_, heq, -⟩
    · exact htrans hab (h b y z (hyz.cons_cons b) (htrans hba hxz))
    · obtain ⟨rfl, -⟩ := List.cons.inj heq
      exact hab

lemma together_cons_of_not_equal (hab : ¬ equal a b) :
    Together equal (a :: b :: l) ↔ (∀ c ∈ l, ¬ equal a c) ∧ Together equal (b :: l) := by
  constructor
  · refine fun h => ⟨fun c hc hac => hab (h a b c ?_ hac), h.of_cons⟩
    exact ((List.singleton_sublist.2 hc).cons_cons b).cons_cons a
  · rintro ⟨hnone, h⟩ x y z hxyz hxz
    rcases List.sublist_cons_iff.1 hxyz with hxyz | ⟨_, heq, hyz⟩
    · exact h x y z hxyz hxz
    · obtain ⟨rfl, rfl⟩ := List.cons.inj heq
      have hz : z ∈ l := hyz.tail.subset List.mem_cons_self
      exact absurd hxz (hnone z hz)

end Cons

/-- Between equal elements there is none that differs from them and that the order does not tell
from them. -/
def Separable (order : α → α → Ordering) (equal : α → α → Prop) (l : List α) : Prop :=
  ∀ a b c, [a, b, c].Sublist l → equal a c → order a b = .eq → equal a b

lemma Separable.of_sublist {l l' : List α} (h : Separable order equal l') (hs : l.Sublist l') :
    Separable order equal l := fun a b c habc => h a b c (habc.trans hs)

lemma together_sort (hr : Respects order equal) {l : List α} (h : Separable order equal l) :
    Together equal (sort order l) := by
  induction l using List.reverseRecOn with
  | nil =>
    intro x y z hxyz
    cases hxyz
  | append_singleton before a ih =>
    obtain ⟨l, r, hbefore, hsort, hbehind, hlast⟩ := exists_sort_concat order before a
    have hold : Together equal (l ++ r) :=
      hbefore ▸ ih (h.of_sublist (List.sublist_append_left before [a]))
    rw [hsort]
    intro x y z hxyz hxz
    rcases triple_sublist_insert hxyz with hxyz | ⟨rfl, hz⟩ | ⟨hx, rfl, hz⟩ | ⟨hxy, rfl⟩
    · exact hold x y z hxyz hxz
    · have hlt := hbehind z hz
      rw [hr.eq_of_equal hxz] at hlt
      cases hlt
    · -- what the new element was put behind would be equal to `x`, which is greater
      have hlt : order y x = .lt := by rw [hr.congr_right hxz, hbehind z hz]
      obtain ⟨rest, w, rfl, rfl | hxw⟩ := exists_last hx
      · exact absurd hlt (hlast rest x rfl)
      · have hequal : equal x w :=
          hold x w z (hxw.append (List.singleton_sublist.2 hz)) hxz
        exact absurd (hr.congr_right hequal y ▸ hlt) (hlast rest w rfl)
    · obtain ⟨rest, w, rfl, hxw⟩ := exists_last (hxy.subset List.mem_cons_self)
      have hw : order x w ≠ .lt := hr.congr hxz w ▸ hlast rest w rfl
      by_cases hequal : equal x w
      · rcases pair_sublist_insert hxy with hxy | ⟨-, rfl⟩ | ⟨-, hy⟩
        · rw [List.append_nil] at hxy
          exact hold x y w ((hxy.append (List.Sublist.refl [w])).trans
            (List.sublist_append_left _ r)) hequal
        · exact hequal
        · cases hy
      · -- either `w` itself keeps the new element from those it equals, or what keeps `w` there
        exfalso
        have hpair : [x, w].Sublist (sort order before) := by
          rcases hxw with rfl | hxw
          · exact absurd (hr.equivalence.refl x) hequal
          · exact hbefore ▸ hxw.trans (List.sublist_append_left _ r)
        have hnone {v : α} (hv : [x, v].Sublist before) (heq : order x v = .eq) : equal x v :=
          h x v z (hv.append (List.Sublist.refl [z])) hxz heq
        cases hxwo : order x w with
        | lt => exact hw hxwo
        | eq => exact hequal (hnone (pair_sublist_of_sort hpair hxwo) hxwo)
        | gt =>
          obtain ⟨v, hv, heq, hne⟩ := exists_between_of_inversion hr hpair (hr.lt_of_gt hxwo)
          exact hne (hnone hv heq)

/-! ### Images -/

section Images

variable {β : Type} {f : β → α} {l : List β}

lemma forall_triples_map {p : α → α → α → Prop} :
    (∀ a b c, [a, b, c].Sublist (l.map f) → p a b c) ↔
      ∀ a b c, [a, b, c].Sublist l → p (f a) (f b) (f c) := by
  refine ⟨fun h a b c habc => h _ _ _ (habc.map f), fun h a b c habc => ?_⟩
  obtain ⟨t, ht, heq⟩ := List.sublist_map_iff.1 habc
  match t, heq with
  | [x, y, z], heq =>
    simp only [List.map_cons, List.map_nil, List.cons.injEq] at heq
    obtain ⟨rfl, rfl, rfl, -⟩ := heq
    exact h x y z ht

end Images

/-- Sorting brings all equal elements together exactly if none between them is in their way. -/
lemma together_sort_iff (hr : Respects order equal) (l : List α) :
    Together equal (sort order l) ↔ Separable order equal l := by
  refine ⟨fun h a b c habc hac hab => ?_, together_sort hr⟩
  have hbc : order b c = .eq := by
    rw [← hr.congr_right hac, hr.swap, hab]
    rfl
  have hca : order c a = .eq := hr.eq_of_equal (hr.equivalence.symm hac)
  refine h a b c (sublist_sort habc ?_) hac
  simp [hr.swap a b, hr.swap b c, hab, hbc, hca]

end ObjectGraph.Stable
