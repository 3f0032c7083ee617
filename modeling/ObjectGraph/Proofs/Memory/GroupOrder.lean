/-
# Groups in order

The groups of items are the sorted items cut into pieces: put behind each other they are the sorted
items again, whatever the sort made of them.  A piece ends where the next item has another key
value, so that the keys of neighbouring groups differ.

Which order this is depends on the way of sorting only where a key value blurs two others.  Values
that the order tells from all others, such as strings and integers of 64 bits, never do: sorting
puts them in order, so the keys of the groups increase, and it leaves the items of one key value in
the order in which they came.
-/
import ObjectGraph.Proofs.Memory.Grouping
import Mathlib.Data.List.Forall2

namespace ObjectGraph

/-! ### Key values that the order tells from all others -/

/-- Whether a value is of a kind in which only equal values are not told apart. -/
def Json.Exact : Json → Prop
  | .null | .boolean _ | .string _ => True
  | .number n => n.int64?.isSome
  | .array _ | .object _ => False

section Exact

variable {v w : Json} {key : String} {items : List Item}

lemma Json.Exact.wellFormed (h : v.Exact) : v.WellFormed := by
  cases v with
  | array | object => exact h.elim
  | _ => trivial

/-- Exact values that are not told apart are the same. -/
lemma Json.Exact.eq_of_compareValues (hv : v.Exact) (hw : w.Exact)
    (h : compareValues (some v) (some w) = .eq) : v = w := by
  rcases compareValues_eq_eq h with heq | ⟨m, n, hm, hn, hmn⟩ | ⟨hthree, hrank⟩
  · exact Option.some.inj heq
  · obtain rfl := Option.some.inj hm
    obtain rfl := Option.some.inj hn
    obtain ⟨i, hi⟩ := Option.isSome_iff_exists.1 hv
    obtain ⟨j, hj⟩ := Option.isSome_iff_exists.1 hw
    rw [Json.Number.order_of_some hi hj, compare_eq_iff_eq] at hmn
    rw [Json.Number.eq_int hi, Json.Number.eq_int hj, hmn]
  · -- of the last three kinds only null is exact
    have hnull {u : Json} (hu : u.Exact) (hthree : 3 ≤ kindRank (some u)) : u = .null := by
      cases u with
      | null => rfl
      | boolean | number | string => simp [kindRank] at hthree
      | array | object => exact hu.elim
    rw [hnull hv hthree, hnull hw (hrank ▸ hthree)]

lemma unblurred_of_exact (h : ∀ item ∈ items, (item.groupKey key).Exact) :
    Unblurred key items := by
  rintro a - b hb c - ⟨m, i, j, hm, -, -, hblurs⟩
  have hexact := h b hb
  rw [Item.groupKey, hm] at hexact
  have hsome : m.int64?.isSome = true := hexact
  rw [hblurs.asDouble] at hsome
  cases hsome

/-- Sorting compares what is missing as null. -/
lemma Item.orderBy_eq (key : String) (a b : Item) :
    a.orderBy key b = compareValues (some (a.groupKey key)) (some (b.groupKey key)) :=
  (compareValues_getD _ _).symm

end Exact

/-! ### Pieces of the sorted items -/

/-- An object that holds some items, of which there is at least one, and the value that they all
have in a field, null if it is missing. -/
structure Item.IsGroup (key : String) (members : List Item) (group : Item) : Prop where
  nonempty : members ≠ []
  items : group.get? "items" = some (.array (members.map Item.toJson))
  key : ∀ member ∈ members, (member.groupKey key).same (group.groupKey "key") = true

namespace Group

variable {key : String} {items : List Item} {groups : List Group}

lemma Gathers.isGroup (h : Gathers key items groups)
    (hw : ∀ item ∈ items, (item.groupKey key).WellFormed) :
    ∀ group ∈ groups, Item.IsGroup key group.items group.toItem := by
  intro group hg
  obtain ⟨item, hm, -⟩ := h.exists_mem group hg
  exact ⟨List.ne_nil_of_mem hm, group.get?_items_toItem, h.same_key hw group hg⟩

/-- The keys of groups that stand next to each other differ. -/
lemma Gathers.isChain (h : Gathers key items groups)
    (hw : ∀ item ∈ items, (item.groupKey key).WellFormed) :
    groups.IsChain fun g h => g.key.same h.key = false := by
  induction h with
  | nil => exact .nil
  | single item => exact .singleton _
  | @joined item head rest others groups _ hs ih =>
    obtain ⟨hitem, hrest⟩ := List.forall_mem_cons.1 hw
    have hchain := ih hrest
    rw [List.isChain_cons] at hchain ⊢
    refine ⟨fun group hg => ?_, hchain.2⟩
    rw [Json.same_congr hitem (hrest head List.mem_cons_self) hs]
    exact hchain.1 group hg
  | @apart item head rest others groups _ hs ih =>
    obtain ⟨-, hrest⟩ := List.forall_mem_cons.1 hw
    rw [List.isChain_cons_cons]
    exact ⟨Bool.eq_false_iff.2 hs, ih hrest⟩

lemma Gathers.sublist (h : Gathers key items groups) :
    ∀ group ∈ groups, group.items.Sublist items := by
  intro group hg
  rw [← h.flatMap_items, List.flatMap_def]
  exact List.sublist_flatten_of_mem (List.mem_map_of_mem hg)

/-- If no item is greater than a later one, no group has a greater key than a later one. -/
lemma Gathers.pairwise_isLE (h : Gathers key items groups)
    (horder : Stable.InOrder (Item.orderBy key) items) :
    groups.Pairwise fun g h => (compareValues (some g.key) (some h.key)).isLE := by
  rw [Stable.InOrder, ← h.flatMap_items, List.pairwise_flatMap] at horder
  refine horder.2.imp_of_mem fun {g h'} hg hh hle => ?_
  obtain ⟨a, ha, hkey⟩ := h.exists_mem g hg
  obtain ⟨b, hb, hkey'⟩ := h.exists_mem h' hh
  rw [hkey, hkey', ← Item.orderBy_eq]
  exact hle a ha b hb

end Group

/-! ### Exact keys -/

section Exact

variable {key : String} {items : List Item}

/-- Exact keys of groups increase: none is greater than a later one, and none comes twice. -/
lemma pairwise_lt_of_exact (he : ∀ item ∈ items, (item.groupKey key).Exact) :
    (Group.runs key (Stable.sort (Item.orderBy key) items)).Pairwise
      fun g h => compareValues (some g.key) (some h.key) = .lt := by
  have hw : ∀ item ∈ items, (item.groupKey key).WellFormed := fun item hm => (he item hm).wellFormed
  have hruns := Group.gathers_runs key (Stable.sort (Item.orderBy key) items)
  have hexact : ∀ group ∈ Group.runs key (Stable.sort (Item.orderBy key) items),
      group.key.Exact := by
    intro group hg
    obtain ⟨item, hm, hkey⟩ := hruns.exists_mem group hg
    rw [hkey]
    exact he item (Stable.mem_sort.1 ((hruns.sublist group hg).subset hm))
  have htotal : Stable.TotalOn (Item.orderBy key) items := (unblurred_of_exact he).totalOn
  have hle := hruns.pairwise_isLE htotal.inOrder_sort
  -- what is not told apart shares its key, so nothing can stand between two items of one key
  have hseparable : Stable.Separable (Item.orderBy key) (Item.SharesKey key) items := by
    intro a b c habc _ hab
    have ha := he a (habc.subset (by simp))
    have hb := he b (habc.subset (by simp))
    rw [Item.orderBy_eq] at hab
    rw [Item.SharesKey, ha.eq_of_compareValues hb hab]
    exact Json.same_self hb.wellFormed
  have hdiffer := (hruns.pairwise_iff fun item hm => hw item (Stable.mem_sort.1 hm)).2
    ((together_sort_orderBy key items hw).2 hseparable)
  refine (hle.and hdiffer).imp_of_mem fun {g h} hg hh hboth => ?_
  obtain ⟨hgh, hne⟩ := hboth
  cases hcompare : compareValues (some g.key) (some h.key) with
  | lt => rfl
  | eq =>
    rw [(hexact g hg).eq_of_compareValues (hexact h hh) hcompare,
      Json.same_self (hexact h hh).wellFormed] at hne
    cases hne
  | gt =>
    rw [hcompare] at hgh
    cases hgh

/-- With exact keys, the items of a group stand in it as they came. -/
lemma sublist_of_exact (he : ∀ item ∈ items, (item.groupKey key).Exact) :
    ∀ group ∈ Group.runs key (Stable.sort (Item.orderBy key) items),
      group.items.Sublist items := by
  intro group hg
  have hruns := Group.gathers_runs key (Stable.sort (Item.orderBy key) items)
  have hexact : ∀ item ∈ group.items, item ∈ items ∧ (item.groupKey key).Exact := by
    intro item hm
    have hitem := Stable.mem_sort.1 ((hruns.sublist group hg).subset hm)
    exact ⟨hitem, he item hitem⟩
  obtain ⟨first, hfirst, hkey⟩ := hruns.exists_mem group hg
  have htotal : Stable.TotalOn (Item.orderBy key) items := (unblurred_of_exact he).totalOn
  have hsame := hruns.same_key (fun item hm => (he item (Stable.mem_sort.1 hm)).wellFormed) group hg
  -- all of them are equal in the order to the one that gave the key
  have halike : Stable.alike (Item.orderBy key) first group.items = group.items := by
    refine List.filter_eq_self.2 fun item hm => ?_
    have heq : item.orderBy key first = .eq := by
      rw [Item.orderBy_eq, compareValues_congr (hsame item hm), hkey]
      have hself := compareValues_swap (some (first.groupKey key)) (some (first.groupKey key))
      cases hcompare : compareValues (some (first.groupKey key)) (some (first.groupKey key)) <;>
        simp_all
    have hswap : first.orderBy key item = .eq := by
      rw [Item.orderBy, compareValues_swap (item.get? key), ← Item.orderBy, heq]
      rfl
    simp [hswap]
  rw [← halike]
  refine ((hruns.sublist group hg).filter _).trans ?_
  have hsort := htotal.alike_sort (hexact first hfirst).1
  rw [Stable.alike, Stable.alike] at hsort
  rw [hsort]
  exact List.filter_sublist

end Exact

/-! ### Groups put behind each other -/

/-- However items are sorted, unless the sort gives up, their groups hold the sorted items one after
the other, each at least one, all of which have its key, and neighbouring groups have different
keys.  If no key value blurs two others, the sort does not give up, and the items are in order,
those that are not told apart as they came.  If all key values are exact, the keys of the groups
increase and every group holds its items as they came. -/
theorem groupBy_flatten (sorting : Stable.Sorting Item) (key : String) (items : List Item)
    (hw : ∀ item ∈ items, (item.groupKey key).WellFormed) :
    (Unblurred key items → groupWith sorting key items = some (groupBy key items)) ∧
      ∀ groups ∈ groupWith sorting key items, ∃ parts : List (List Item),
        sorting.sort (Item.orderBy key) items = some parts.flatten ∧ parts.flatten.Perm items ∧
        List.Forall₂ (Item.IsGroup key) parts groups ∧
        groups.IsChain (fun a b => (a.groupKey "key").same (b.groupKey "key") = false) ∧
        (Unblurred key items →
          parts.flatten = Stable.sort (Item.orderBy key) items ∧
            Stable.InOrder (Item.orderBy key) parts.flatten ∧
            ∀ item ∈ items, Stable.alike (Item.orderBy key) item parts.flatten
              = Stable.alike (Item.orderBy key) item items) ∧
        ((∀ item ∈ items, (item.groupKey key).Exact) →
          groups.Pairwise (fun a b => a.orderBy "key" b = .lt) ∧
            ∀ part ∈ parts, part.Sublist items) := by
  refine ⟨fun hblurs => hblurs.groupWith_eq sorting, fun groups hgroups => ?_⟩
  obtain ⟨sorted, hs, hperm, rfl⟩ := exists_of_mem_groupWith hgroups
  have hsorted : ∀ item ∈ sorted, (item.groupKey key).WellFormed :=
    fun item hm => hw item (hperm.subset hm)
  have hsettled (hblurs : Unblurred key items) :
      sorted = Stable.sort (Item.orderBy key) items :=
    Option.some.inj (hs.symm.trans (sorting.sort_eq hblurs.totalOn))
  have hruns := Group.gathers_runs key sorted
  have hflatten : ((Group.runs key sorted).map (·.items)).flatten = sorted := by
    rw [← List.flatMap_def]
    exact hruns.flatMap_items
  refine ⟨(Group.runs key sorted).map (·.items), by rw [hflatten, hs], by rwa [hflatten], ?_, ?_,
    fun hblurs => ?_, fun hexact => ?_⟩
  · rw [gatherRuns, List.forall₂_map_left_iff, List.forall₂_map_right_iff, List.forall₂_same]
    exact hruns.isGroup hsorted
  · rw [gatherRuns, List.isChain_map]
    exact hruns.isChain hsorted
  · have htotal := hblurs.totalOn
    rw [hflatten, hsettled hblurs]
    exact ⟨rfl, htotal.inOrder_sort, fun item hm => htotal.alike_sort hm⟩
  · rw [hsettled (unblurred_of_exact hexact), gatherRuns, List.pairwise_map, List.forall_mem_map]
    exact ⟨pairwise_lt_of_exact hexact, sublist_of_exact hexact⟩

/-- Three groups of users by age, the last one of those without an age. -/
theorem groupBy_flatten_ages :
    (∀ item ∈ ages, (item.groupKey "age").WellFormed) ∧
      (∀ item ∈ ages, (item.groupKey "age").Exact) ∧ (groupBy "age" ages).length = 3 ∧
      ∃ parts : List (List Item), parts.flatten = Stable.sort (Item.orderBy "age") ages ∧
        List.Forall₂ (Item.IsGroup "age") parts (groupBy "age" ages) ∧
        (groupBy "age" ages).Pairwise (fun a b => a.orderBy "key" b = .lt) ∧
        ∀ part ∈ parts, part.Sublist ages := by
  have hexact : ∀ item ∈ ages, (item.groupKey "age").Exact := by
    simp only [ages, List.forall_mem_cons]
    exact ⟨rfl, rfl, trivial, rfl, trivial, by simp⟩
  have hw : ∀ item ∈ ages, (item.groupKey "age").WellFormed :=
    fun item hm => (hexact item hm).wellFormed
  obtain ⟨-, hgroups⟩ := groupBy_flatten .insertion "age" ages hw
  obtain ⟨parts, -, -, hparts, -, hsettled, hincreasing⟩ :=
    hgroups _ (groupWith_insertion "age" ages)
  exact ⟨hw, hexact, rfl, parts, (hsettled (unblurred_of_exact hexact)).1, hparts,
    hincreasing hexact⟩

end ObjectGraph
