/-
# Renaming a field

A field is renamed by giving its entry the new name and storing all entries again, in their
order, each name in its first place with its last value.  If the item has an entry of the new
name already, the two meet in one place, and the one that stands behind the other gives the value:
the renamed value is lost exactly when the new name stands behind the old one.  Other entries are
untouched in either case.
-/
import ObjectGraph.Memory.Reshape
import ObjectGraph.Proofs.Named

namespace ObjectGraph

/-! ### Entries with a name replaced -/

namespace Named

variable {α : Type} {old new : String} {value : α} {entries : List (String × α)}
variable {p : String → Bool}

/-- The entries, those of one name under another. -/
def relabel (old new : String) (entries : List (String × α)) : List (String × α) :=
  entries.map fun entry => (if entry.1 = old then new else entry.1, entry.2)

lemma relabel_of_not_mem (h : old ∉ keys entries) : relabel old new entries = entries := by
  refine (List.map_congr_left fun entry he => ?_).trans (List.map_id entries)
  have hne : entry.1 ≠ old := fun heq => h (heq ▸ List.mem_map_of_mem he)
  rw [if_neg hne]
  rfl

lemma not_mem_keys_relabel (h : old ≠ new) : old ∉ keys (relabel old new entries) := by
  rw [keys, relabel, List.map_map]
  intro hm
  obtain ⟨entry, -, hname⟩ := List.mem_map.1 hm
  by_cases he : entry.1 = old
  · exact h (hname.symm.trans (if_pos he))
  · exact he ((if_neg he).symm.trans hname)

lemma lookup_collapse_relabel_self (h : old ≠ new) :
    (collapse (relabel old new entries)).lookup old = none := by
  have hnot : old ∉ keys (relabel old new entries) := not_mem_keys_relabel h
  rw [lookup_collapse]
  refine lookup_of_not_mem fun hm => hnot ?_
  rw [keys, List.map_reverse] at hm
  exact List.mem_reverse.1 hm

lemma filter_relabel (hold : p old = false) (hnew : p new = false) :
    (relabel old new entries).filter (fun entry => p entry.1)
      = entries.filter fun entry => p entry.1 := by
  induction entries with
  | nil => rfl
  | cons entry rest ih =>
    obtain ⟨k, v⟩ := entry
    by_cases hk : k = old
    · simpa [relabel, hk, hold, hnew] using ih
    · cases hp : p k <;> simpa [relabel, hk, hp] using ih

lemma filter_collapse_relabel (hn : (keys entries).Nodup) (hold : p old = false)
    (hnew : p new = false) :
    (collapse (relabel old new entries)).filter (fun entry => p entry.1)
      = entries.filter fun entry => p entry.1 := by
  have hkept : (keys (entries.filter fun entry => p entry.1)).Nodup :=
    hn.sublist (List.filter_sublist.map Prod.fst)
  rw [collapse, filter_putAll, filter_relabel hold hnew]
  exact putAll_of_nodup hkept

lemma pair_sublist_iff {a b : String} {before after : List String}
    (h : (before ++ a :: after).Nodup) :
    [a, b].Sublist (before ++ a :: after) ↔ b ∈ after := by
  have hbefore : a ∉ before := fun hm => (List.nodup_append.1 h).2.2 _ hm _ List.mem_cons_self rfl
  constructor
  · intro hs
    obtain ⟨front, back, hfb, hfront, hback⟩ := List.sublist_append_iff.1 hs
    cases front with
    | nil =>
      rw [List.nil_append] at hfb
      subst hfb
      exact List.singleton_sublist.1 (List.cons_sublist_cons.1 hback)
    | cons c rest =>
      obtain ⟨rfl, -⟩ := List.cons.inj hfb
      exact absurd (hfront.subset List.mem_cons_self) hbefore
  · intro hb
    exact (List.cons_sublist_cons.2 (List.singleton_sublist.2 hb)).trans
      (List.sublist_append_right _ _)

lemma lookup_collapse_relabel (hn : (keys entries).Nodup) (h : entries.lookup old = some value) :
    (collapse (relabel old new entries)).lookup new
      = if [old, new].Sublist (keys entries) then entries.lookup new else some value := by
  obtain ⟨before, after, rfl, -⟩ := List.lookup_eq_some_iff.1 h
  have hkeys : keys (before ++ (old, value) :: after) = keys before ++ old :: keys after :=
    keys_append
  rw [hkeys] at hn ⊢
  obtain ⟨hold, hafter⟩ := List.nodup_cons.1 (List.nodup_append.1 hn).2.1
  have hrelabel : relabel old new (before ++ (old, value) :: after)
      = relabel old new before ++ (new, value) :: after := by
    have hsame : relabel old new after = after := relabel_of_not_mem hold
    simp only [relabel, List.map_append, List.map_cons, if_true] at hsame ⊢
    rw [hsame]
  have hlast : (collapse (relabel old new (before ++ (old, value) :: after))).lookup new
      = (after.reverse.lookup new).or (some value) := by
    rw [lookup_collapse, hrelabel, List.reverse_append, List.reverse_cons, List.append_assoc,
      List.lookup_append, List.singleton_append, List.lookup_cons_self]
  rw [hlast, if_congr (pair_sublist_iff hn) rfl rfl]
  by_cases hm : new ∈ keys after
  · obtain ⟨entry, he, rfl⟩ := List.mem_map.1 hm
    have hreverse : (keys after.reverse).Nodup := by
      rw [keys, List.map_reverse]
      exact List.nodup_reverse.2 hafter
    rw [if_pos hm, lookup_of_mem hreverse (List.mem_reverse.2 he),
      lookup_of_mem (hkeys ▸ hn) (List.mem_append_right _ (List.mem_cons_of_mem _ he))]
    rfl
  · have hnone : after.reverse.lookup new = none := lookup_of_not_mem fun hr => by
      rw [keys, List.map_reverse] at hr
      exact hm (List.mem_reverse.1 hr)
    rw [if_neg hm, hnone]
    rfl

end Named

/-! ### A renamed field -/

namespace Item

/-- The key under which the field of a reference is stored. -/
def outputKeyOf (reference : String) : String := outputKey (unqualified reference)

/-- The entries of an item under other keys than the listed ones, in their order. -/
def besides (keys : List String) (item : Item) : List (String × Json) :=
  item.members.entries.filter fun entry => entry.1 ∉ keys

/-- Renaming keeps the value unless the new name stands behind the old one: then the value that
was there takes its place.  The old name is gone, and all other entries are as they were. -/
theorem members_rename (item : Item) (old new : String) (value : Json)
    (h : item.members.get? (outputKeyOf old) = some value) :
    (item.rename old new).members.get? (outputKeyOf new)
        = (if [outputKeyOf old, outputKeyOf new].Sublist item.keys
            then item.members.get? (outputKeyOf new) else some value)
      ∧ (outputKeyOf old ≠ outputKeyOf new →
          (item.rename old new).members.get? (outputKeyOf old) = none)
      ∧ (item.rename old new).besides [outputKeyOf old, outputKeyOf new]
          = item.besides [outputKeyOf old, outputKeyOf new] := by
  have hrename : (item.rename old new).members.entries = Named.collapse
      (Named.relabel (outputKeyOf old) (outputKeyOf new) item.members.entries) := rfl
  refine ⟨?_, fun hne => ?_, ?_⟩
  · rw [OrderedMap.get?, hrename]
    exact Named.lookup_collapse_relabel item.members.nodup h
  · rw [OrderedMap.get?, hrename]
    exact Named.lookup_collapse_relabel_self hne
  · rw [besides, besides, hrename]
    exact Named.filter_collapse_relabel (p := fun key => decide (key ∉ _)) item.members.nodup
      (decide_eq_false (not_not.2 List.mem_cons_self))
      (decide_eq_false (not_not.2 (List.mem_cons_of_mem _ List.mem_cons_self)))

/-- The name of a user, renamed to a name of its own. -/
theorem members_rename_nickname :
    ((ofMembers [("id", .int 1), ("name", .string "a"), ("age", .int 16)]).rename
      "user.name" "nickname").members.get? (outputKeyOf "nickname") = some (.string "a") :=
  (members_rename (ofMembers [("id", .int 1), ("name", .string "a"), ("age", .int 16)])
    "user.name" "nickname" (.string "a") rfl).1.trans (if_neg (by decide +kernel))

/-- Renamed to the name of a field behind it, the name of a user is lost. -/
theorem members_rename_age :
    (ofMembers [("id", .int 1), ("name", .string "a"), ("age", .int 16)]).members.get?
        (outputKeyOf "name") = some (.string "a")
      ∧ ((ofMembers [("id", .int 1), ("name", .string "a"), ("age", .int 16)]).rename
          "name" "age").members.get? (outputKeyOf "age") ≠ some (.string "a") := by
  have hage : ((ofMembers [("id", .int 1), ("name", .string "a"), ("age", .int 16)]).rename
      "name" "age").members.get? (outputKeyOf "age") = some (.int 16) := rfl
  refine ⟨rfl, ?_⟩
  rw [hage]
  nofun

end Item
end ObjectGraph
