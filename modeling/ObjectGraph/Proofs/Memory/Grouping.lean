/-
# Groups of items

Items are grouped by sorting them by the value of a field and then putting neighbours with equal
values together.  The order and the equality are not the same: the order does not tell an integer
from the double of its value, nor one array from another, while equality does.  So a value has one
group only if sorting brings all its items together, and that depends on where items with other
values stand among them.

What the groups hold does not depend on the way of sorting, which only moves items.  Their number
and their order are settled where the order of the key values is a total preorder; elsewhere a sort
may do as it likes.
-/
import ObjectGraph.Memory.Reshape
import ObjectGraph.Proofs.Memory.Ordering
import ObjectGraph.Proofs.Together

namespace ObjectGraph

/-! ### Items with the same key value -/

/-- Two items have the same value in a field, null if it is missing. -/
def Item.SharesKey (key : String) (a b : Item) : Prop :=
  (a.groupKey key).same (b.groupKey key) = true

section Keys

variable {key : String} {a b c : Item}

lemma Item.SharesKey.trans (h : a.SharesKey key b) (h' : b.SharesKey key c) : a.SharesKey key c :=
  Json.same_trans h h'

/-- An item whose key value names no member twice in any object. -/
abbrev Keyed (key : String) : Type := { item : Item // (item.groupKey key).WellFormed }

/-- The order of items respects the equality of their key values. -/
lemma respects_orderBy (key : String) :
    Stable.Respects (fun a b : Keyed key => a.1.orderBy key b.1)
      fun a b => a.1.SharesKey key b.1 where
  equivalence :=
    ⟨fun a => Json.same_self a.2, fun {a b} h => Json.same_symm a.2 b.2 h, Item.SharesKey.trans⟩
  congr {a b} h c := by
    have hcongr := compareValues_congr h (some (c.1.groupKey key))
    rw [Item.groupKey, Item.groupKey, Item.groupKey, compareValues_getD, compareValues_getD]
      at hcongr
    exact hcongr
  swap a b := compareValues_swap _ _
  trans h h' := compareValues_trans h h'

end Keys

/-! ### Runs of neighbours -/

namespace Group

variable {key : String} {items : List Item} {groups : List Group}

/-- Items with their runs: an item joins the run behind it if it shares the key value of the first
item there, and else is a run of its own. -/
inductive Gathers (key : String) : List Item → List Group → Prop
  | nil : Gathers key [] []
  | single (item : Item) : Gathers key [item] [⟨item.groupKey key, [item]⟩]
  | joined {item head : Item} {rest others : List Item} {groups : List Group}
    (h : Gathers key (head :: rest) (⟨head.groupKey key, head :: others⟩ :: groups))
    (hs : item.SharesKey key head) :
    Gathers key (item :: head :: rest) (⟨item.groupKey key, item :: head :: others⟩ :: groups)
  | apart {item head : Item} {rest others : List Item} {groups : List Group}
    (h : Gathers key (head :: rest) (⟨head.groupKey key, head :: others⟩ :: groups))
    (hs : ¬ item.SharesKey key head) :
    Gathers key (item :: head :: rest)
      (⟨item.groupKey key, [item]⟩ :: ⟨head.groupKey key, head :: others⟩ :: groups)

lemma Gathers.exists_head {item : Item} {rest : List Item} (h : Gathers key (item :: rest) groups) :
    ∃ others behind, groups = ⟨item.groupKey key, item :: others⟩ :: behind := by
  cases h with
  | single | joined | apart => exact ⟨_, _, rfl⟩

lemma gathers_runs (key : String) (items : List Item) : Gathers key items (runs key items) := by
  induction items with
  | nil => exact .nil
  | cons item rest ih =>
    cases rest with
    | nil => exact .single item
    | cons head rest =>
      obtain ⟨others, groups, hruns⟩ := ih.exists_head
      rw [hruns] at ih
      rw [runs, hruns]
      dsimp only
      split
      · exact ih.joined ‹_›
      · exact ih.apart ‹_›

lemma Gathers.flatMap_items (h : Gathers key items groups) :
    groups.flatMap (·.items) = items := by
  induction h with
  | nil => rfl
  | single item => rfl
  | joined _ _ ih =>
    rw [List.flatMap_cons] at ih ⊢
    exact congrArg _ ih
  | apart _ _ ih =>
    rw [List.flatMap_cons]
    exact congrArg _ ih

/-- The key of a group is the key value of its first item. -/
lemma Gathers.exists_mem (h : Gathers key items groups) :
    ∀ group ∈ groups, ∃ item ∈ group.items, group.key = item.groupKey key := by
  induction h with
  | nil => simp
  | single item => simp
  | joined _ _ ih =>
    rw [List.forall_mem_cons] at ih ⊢
    exact ⟨⟨_, List.mem_cons_self, rfl⟩, ih.2⟩
  | apart _ _ ih =>
    rw [List.forall_mem_cons]
    exact ⟨⟨_, List.mem_cons_self, rfl⟩, ih⟩

/-- All items of a group have its key. -/
lemma Gathers.same_key (h : Gathers key items groups)
    (hw : ∀ item ∈ items, (item.groupKey key).WellFormed) :
    ∀ group ∈ groups, ∀ item ∈ group.items, (item.groupKey key).same group.key = true := by
  induction h with
  | nil => simp
  | single item => simpa using Json.same_self (hw item (by simp))
  | @joined item head rest others groups _ hs ih =>
    obtain ⟨hitem, hrest⟩ := List.forall_mem_cons.1 hw
    obtain ⟨hothers, hgroups⟩ := List.forall_mem_cons.1 (ih hrest)
    have hback : head.SharesKey key item :=
      Json.same_symm hitem (hrest head List.mem_cons_self) hs
    refine List.forall_mem_cons.2 ⟨List.forall_mem_cons.2 ⟨Json.same_self hitem, ?_⟩, hgroups⟩
    exact fun other hm => Json.same_trans (hothers other hm) hback
  | @apart item _ _ _ _ _ _ ih =>
    obtain ⟨hitem, hrest⟩ := List.forall_mem_cons.1 hw
    exact List.forall_mem_cons.2 ⟨by simpa using Json.same_self hitem, ih hrest⟩

/-- No key has two groups exactly if the items of every key stand together. -/
lemma Gathers.pairwise_iff (h : Gathers key items groups)
    (hw : ∀ item ∈ items, (item.groupKey key).WellFormed) :
    groups.Pairwise (fun g h => g.key.same h.key = false) ↔
      Stable.Together (Item.SharesKey key) items := by
  induction h with
  | nil =>
    refine iff_of_true .nil fun a b c h => ?_
    cases h
  | single item =>
    refine iff_of_true (List.pairwise_singleton ..) fun a b c h => ?_
    exact absurd h.length_le (by simp)
  | @joined item head rest others groups hrest hs ih =>
    obtain ⟨hitem, hwell⟩ := List.forall_mem_cons.1 hw
    have hhead : (head.groupKey key).WellFormed := hwell head List.mem_cons_self
    have hback : head.SharesKey key item := Json.same_symm hitem hhead hs
    have hcons : Stable.Together (Item.SharesKey key) (item :: head :: rest) ↔
        Stable.Together (Item.SharesKey key) (head :: rest) :=
      Stable.together_cons_of_equal Item.SharesKey.trans hs hback
    -- The first group keeps its key up to what the item shares with it.
    rw [hcons, ← ih hwell, List.pairwise_cons, List.pairwise_cons]
    simp only [Json.same_congr hitem hhead hs]
  | @apart item head rest others groups hrest hs ih =>
    obtain ⟨hitem, hwell⟩ := List.forall_mem_cons.1 hw
    rw [Stable.together_cons_of_not_equal hs, ← ih hwell, List.pairwise_cons]
    -- A later group has the key of the item exactly if an item in it shares the key.
    refine and_congr_left fun _ => ⟨fun h c hc hshares => ?_, fun h group hg => ?_⟩
    · have hmem : c ∈ head :: rest := List.mem_cons_of_mem _ hc
      rw [← hrest.flatMap_items] at hmem
      obtain ⟨group, hg, hmem⟩ := List.mem_flatMap.1 hmem
      have hsame := Json.same_trans hshares (hrest.same_key hwell group hg c hmem)
      rw [h group hg] at hsame
      cases hsame
    · obtain ⟨c, hmem, hkey⟩ := hrest.exists_mem group hg
      have hc : c ∈ head :: rest := hrest.flatMap_items ▸ List.mem_flatMap.2 ⟨group, hg, hmem⟩
      rw [hkey, ← Bool.not_eq_true]
      rcases List.mem_cons.1 hc with rfl | hc
      · exact hs
      · exact h c hc

@[simp] lemma groupKey_toItem (group : Group) : group.toItem.groupKey "key" = group.key := rfl

@[simp] lemma get?_items_toItem (group : Group) :
    group.toItem.get? "items" = some (.array (group.items.map Item.toJson)) := rfl

end Group

/-! ### Ways of sorting items -/

section Sorting

variable {key : String} {items sorted : List Item}

/-- No item has a number as its key value that blurs the key values of two others. -/
def Unblurred (key : String) (items : List Item) : Prop :=
  ∀ a ∈ items, ∀ b ∈ items, ∀ c ∈ items, ¬ Blurs (b.get? key) (a.get? key) (c.get? key)

/-- The value of a field, if it is an integer. -/
def Item.integer? (key : String) (item : Item) : Option Int :=
  match item.get? key with
  | some (.number (.int i)) => some i
  | _ => none

lemma Unblurred.totalOn (h : Unblurred key items) : Stable.TotalOn (Item.orderBy key) items where
  swap _ _ _ _ := compareValues_swap _ _
  trans a ha b hb c hc hab hbc :=
    (compareValues_isLE_trans_or hab hbc).resolve_right (h a ha b hb c hc)

/-- Integers of no more than 53 binary digits are never blurred. -/
lemma unblurred_of_small
    (h : ∀ item ∈ items, ∀ i ∈ item.integer? key, i.natAbs ≤ 9007199254740992) :
    Unblurred key items := by
  intro a ha b _ c hc hblurs
  obtain ⟨i, hi | hi, hlarge⟩ := hblurs.exists_large
  · exact absurd (h a ha i (by rw [Item.integer?, hi]; rfl)) (Nat.not_le_of_gt hlarge)
  · exact absurd (h c hc i (by rw [Item.integer?, hi]; rfl)) (Nat.not_le_of_gt hlarge)

/-- The groups of items that are sorted in some way, unless the sort gives up. -/
def groupWith (sorting : Stable.Sorting Item) (key : String) (items : List Item) :
    Option (List Item) :=
  (sorting.sort (Item.orderBy key) items).map (gatherRuns key)

lemma groupWith_insertion (key : String) (items : List Item) :
    groupWith .insertion key items = some (groupBy key items) := rfl

/-- Where nothing is blurred, it does not matter how items are sorted. -/
lemma Unblurred.groupWith_eq (h : Unblurred key items) (sorting : Stable.Sorting Item) :
    groupWith sorting key items = some (groupBy key items) := by
  rw [groupWith, sorting.sort_eq h.totalOn]
  rfl

lemma exists_of_mem_groupWith {sorting : Stable.Sorting Item} {groups : List Item}
    (h : groups ∈ groupWith sorting key items) :
    ∃ sorted, sorting.sort (Item.orderBy key) items = some sorted ∧ sorted.Perm items ∧
      gatherRuns key sorted = groups := by
  obtain ⟨sorted, hs, rfl⟩ := Option.map_eq_some_iff.1 h
  exact ⟨sorted, hs, sorting.perm hs, rfl⟩

end Sorting

/-! ### One group for every key value -/

section Gathering

variable {key : String} {items sorted : List Item}

/-- Every item is in a group whose key is its key value. -/
lemma exists_group_of_mem (hw : ∀ item ∈ items, (item.groupKey key).WellFormed)
    (hperm : sorted.Perm items) {item : Item} (hm : item ∈ items) :
    ∃ group ∈ gatherRuns key sorted, ∃ members, group.get? "items" = some (.array members) ∧
      item.toJson ∈ members ∧ (item.groupKey key).same (group.groupKey "key") = true := by
  have hruns := Group.gathers_runs key sorted
  have hmem : item ∈ sorted := hperm.mem_iff.2 hm
  rw [← hruns.flatMap_items] at hmem
  obtain ⟨group, hg, hmem⟩ := List.mem_flatMap.1 hmem
  exact ⟨group.toItem, List.mem_map_of_mem hg, _, group.get?_items_toItem,
    List.mem_map_of_mem hmem,
    hruns.same_key (fun item hm => hw item (hperm.subset hm)) group hg item hmem⟩

/-- Nothing else is in a group than items whose key value is its key. -/
lemma exists_item_of_member (hw : ∀ item ∈ items, (item.groupKey key).WellFormed)
    (hperm : sorted.Perm items) {group : Item} {members : List Json} {member : Json}
    (hg : group ∈ gatherRuns key sorted) (hi : group.get? "items" = some (.array members))
    (hm : member ∈ members) :
    ∃ item ∈ items, item.toJson = member ∧
      (item.groupKey key).same (group.groupKey "key") = true := by
  have hruns := Group.gathers_runs key sorted
  obtain ⟨run, hrun, rfl⟩ := List.mem_map.1 hg
  rw [Group.get?_items_toItem] at hi
  obtain rfl := Json.array.inj (Option.some.inj hi)
  obtain ⟨item, hmem, rfl⟩ := List.mem_map.1 hm
  have hsorted : item ∈ sorted := by
    rw [← hruns.flatMap_items]
    exact List.mem_flatMap.2 ⟨run, hrun, hmem⟩
  exact ⟨item, hperm.subset hsorted, rfl,
    hruns.same_key (fun item hm => hw item (hperm.subset hm)) run hrun item hmem⟩

/-- Sorting brings the items of every key value together exactly if no item stands between two of
one key value whose own is another one that the order does not tell from it. -/
lemma together_sort_orderBy (key : String) (items : List Item)
    (hw : ∀ item ∈ items, (item.groupKey key).WellFormed) :
    Stable.Together (Item.SharesKey key) (Stable.sort (Item.orderBy key) items) ↔
      Stable.Separable (Item.orderBy key) (Item.SharesKey key) items := by
  obtain ⟨keyed, rfl⟩ : ∃ keyed : List (Keyed key), keyed.map Subtype.val = items :=
    ⟨items.attachWith _ hw, List.attachWith_map_subtype_val ..⟩
  rw [Stable.sort_map, Stable.Together, Stable.forall_triples_map, Stable.Separable,
    Stable.forall_triples_map]
  exact Stable.together_sort_iff (respects_orderBy key) keyed

lemma pairwise_groupBy_iff (hw : ∀ item ∈ items, (item.groupKey key).WellFormed) :
    (groupBy key items).Pairwise (fun a b => (a.groupKey "key").same (b.groupKey "key") = false) ↔
      Stable.Separable (Item.orderBy key) (Item.SharesKey key) items := by
  have hruns := Group.gathers_runs key (Stable.sort (Item.orderBy key) items)
  rw [groupBy, gatherRuns, List.pairwise_map]
  simp only [Group.groupKey_toItem]
  rw [hruns.pairwise_iff fun item hm => hw item (Stable.mem_sort.1 hm)]
  exact together_sort_orderBy key items hw

end Gathering

/-- However items are sorted, grouping puts every item into a group whose key is its key value, and
nothing else into it.  Where no key value blurs two others, so that the sort neither gives up nor
has a choice, grouping makes one group for every key value exactly if no item stands between two
of one key value whose own is another one that the order does not tell from it. -/
theorem groupBy_distinct_iff (sorting : Stable.Sorting Item) (key : String) (items : List Item)
    (hw : ∀ item ∈ items, (item.groupKey key).WellFormed) :
    (Unblurred key items → groupWith sorting key items = some (groupBy key items)) ∧
      ∀ groups ∈ groupWith sorting key items,
        (∀ item ∈ items, ∃ group ∈ groups, ∃ members,
          group.get? "items" = some (.array members) ∧ item.toJson ∈ members ∧
          (item.groupKey key).same (group.groupKey "key") = true) ∧
        (∀ group ∈ groups, ∀ members, group.get? "items" = some (.array members) →
          ∀ member ∈ members, ∃ item ∈ items, item.toJson = member ∧
            (item.groupKey key).same (group.groupKey "key") = true) ∧
        (Unblurred key items →
          (groups.Pairwise (fun a b => (a.groupKey "key").same (b.groupKey "key") = false) ↔
            ∀ a b c, [a, b, c].Sublist items → a.SharesKey key c → a.orderBy key b = .eq →
              a.SharesKey key b)) := by
  refine ⟨fun hblurs => hblurs.groupWith_eq sorting, fun groups hgroups => ?_⟩
  obtain ⟨sorted, -, hperm, rfl⟩ := exists_of_mem_groupWith hgroups
  refine ⟨fun item hm => exists_group_of_mem hw hperm hm,
    fun group hg members hi member hm => exists_item_of_member hw hperm hg hi hm,
    fun hblurs => ?_⟩
  rw [hblurs.groupWith_eq sorting, Option.mem_some_iff] at hgroups
  rw [← hgroups]
  exact pairwise_groupBy_iff hw

/-- Users by age; of one the age is missing, of another one it is null. -/
def ages : List Item :=
  [.ofMembers [("age", .int 17)], .ofMembers [("age", .int 16)], .ofMembers [("name", .string "a")],
    .ofMembers [("age", .int 17)], .ofMembers [("age", .null)]]

/-- There are three ages, and no user stands in the way of two others of one age. -/
theorem groupBy_distinct_iff_ages :
    (∀ item ∈ ages, (item.groupKey "age").WellFormed) ∧ Unblurred "age" ages ∧
      (groupBy "age" ages).length = 3 ∧
      (∃ group ∈ groupBy "age" ages, ∃ members, group.get? "items" = some (.array members) ∧
        (Item.ofMembers [("name", .string "a")]).toJson ∈ members ∧
        Json.null.same (group.groupKey "key") = true) ∧
      ∀ a b c, [a, b, c].Sublist ages → a.SharesKey "age" c → a.orderBy "age" b = .eq →
        a.SharesKey "age" b := by
  have hw : ∀ item ∈ ages, (item.groupKey "age").WellFormed := by
    simp only [ages, List.forall_mem_cons]
    exact ⟨trivial, trivial, trivial, trivial, trivial, by simp⟩
  have hblurs : Unblurred "age" ages := unblurred_of_small (by decide +kernel)
  obtain ⟨-, hgroups⟩ := groupBy_distinct_iff .insertion "age" ages hw
  obtain ⟨hgroup, -, hdistinct⟩ := hgroups _ (groupWith_insertion "age" ages)
  exact ⟨hw, hblurs, rfl, hgroup (.ofMembers [("name", .string "a")]) (by simp [ages]),
    (hdistinct hblurs).1 (by decide +kernel)⟩

/-- An integer, the double of the same value, and the integer again. -/
def mixedNumbers : List Item :=
  [.ofMembers [("k", .int 1)], .ofMembers [("k", .number (.float (.ofInt 1)))],
    .ofMembers [("k", .int 1)]]

/-- The double stands between the integers in every order that does not tell them apart, so that
the integer has two groups, however the items are sorted. -/
theorem groupBy_mixedNumbers :
    (∀ item ∈ mixedNumbers, (item.groupKey "k").WellFormed) ∧
      (∀ sorting, groupWith sorting "k" mixedNumbers = some (groupBy "k" mixedNumbers)) ∧
      ¬ (groupBy "k" mixedNumbers).Pairwise
        fun a b => (a.groupKey "key").same (b.groupKey "key") = false := by
  have hblurs : Unblurred "k" mixedNumbers := unblurred_of_small (by decide +kernel)
  refine ⟨?_, hblurs.groupWith_eq, by decide +kernel⟩
  simp only [mixedNumbers, List.forall_mem_cons]
  exact ⟨trivial, trivial, trivial, by simp⟩

end ObjectGraph
