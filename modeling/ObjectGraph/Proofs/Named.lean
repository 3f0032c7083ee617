/-
# Laws of named values

What is found under a name after something was stored, which names a list has then, and that
storing entries under names that differ keeps all of them in their order.
-/
import ObjectGraph.Named
import Mathlib.Data.List.Induction
import Mathlib.Data.List.Nodup
import Mathlib.Tactic.Lemma

namespace ObjectGraph

variable {α : Type}

namespace Named

variable {name : String} {value : α} {entries base : List (String × α)}

@[simp] lemma keys_append : keys (base ++ entries) = keys base ++ keys entries :=
  List.map_append

lemma lookup_put (name k : String) (value : α) (entries : List (String × α)) :
    (put name value entries).lookup k = if k = name then some value else entries.lookup k := by
  induction entries with
  | nil =>
    by_cases hk : k = name
    · simp [put, hk]
    · simp [put, hk]
  | cons entry rest ih =>
    obtain ⟨name', v⟩ := entry
    by_cases hn : name' = name
    · subst hn
      by_cases hk : k = name'
      · simp [put, hk]
      · simp [put, hk, List.lookup_cons, beq_false_of_ne hk]
    · by_cases hk : k = name'
      · simp [put, hn, hk]
      · simp [put, hn, List.lookup_cons, beq_false_of_ne hk, ih]

lemma lookup_of_mem (hn : (keys entries).Nodup) {entry : String × α} (he : entry ∈ entries) :
    entries.lookup entry.1 = some entry.2 := by
  induction entries with
  | nil => cases he
  | cons head rest ih =>
    obtain ⟨hhead, hrest⟩ := List.nodup_cons.1 hn
    rcases List.mem_cons.1 he with rfl | hm
    · exact List.lookup_cons_self
    · have hne : entry.1 ≠ head.1 := fun hk => hhead (hk ▸ List.mem_map_of_mem hm)
      obtain ⟨k, v⟩ := head
      rw [List.lookup_cons, beq_false_of_ne hne]
      exact ih hrest hm

lemma lookup_of_not_mem (h : name ∉ keys entries) : entries.lookup name = none :=
  List.lookup_eq_none_iff.2 fun entry he => by
    simpa using fun hname => h (List.mem_map.2 ⟨entry, he, hname.symm⟩)

lemma put_of_not_mem (h : name ∉ keys entries) :
    put name value entries = entries ++ [(name, value)] := by
  induction entries with
  | nil => rfl
  | cons entry rest ih =>
    rw [keys_cons, List.mem_cons, not_or] at h
    simp [put, Ne.symm h.1, ih h.2]

lemma keys_put_of_not_mem (h : name ∉ keys entries) :
    keys (put name value entries) = keys entries ++ [name] := by
  rw [put_of_not_mem h, keys_append]
  rfl

lemma keys_put_of_mem (h : name ∈ keys entries) : keys (put name value entries) = keys entries := by
  induction entries with
  | nil => cases h
  | cons entry rest ih =>
    obtain ⟨k, v⟩ := entry
    by_cases hk : k = name
    · simp [put, hk]
    · have hrest : name ∈ keys rest := by
        rcases List.mem_cons.1 h with he | h
        · exact absurd he.symm hk
        · exact h
      simp [put, hk, ih hrest]

lemma putAll_of_nodup (h : (keys (base ++ entries)).Nodup) :
    putAll entries base = base ++ entries := by
  induction entries generalizing base with
  | nil => exact (List.append_nil base).symm
  | cons entry rest ih =>
    have hnot : entry.1 ∉ keys base := by
      rw [keys_append] at h
      exact fun hm => (List.nodup_append.1 h).2.2 _ hm _ List.mem_cons_self rfl
    have hput : put entry.1 entry.2 base = base ++ [entry] := put_of_not_mem hnot
    rw [List.append_cons] at h ⊢
    exact (congrArg (putAll rest) hput).trans (ih h)

lemma lookup_putAll (k : String) :
    (putAll entries base).lookup k = (entries.reverse.lookup k).or (base.lookup k) := by
  induction entries generalizing base with
  | nil => rfl
  | cons entry rest ih =>
    have hrest : (putAll (entry :: rest) base).lookup k
        = (rest.reverse.lookup k).or ((put entry.1 entry.2 base).lookup k) := ih
    obtain ⟨name, value⟩ := entry
    rw [hrest, lookup_put, List.reverse_cons, List.lookup_append, Option.or_assoc]
    by_cases hk : k = name
    · simp [hk]
    · simp [hk, List.lookup_cons, beq_false_of_ne hk]

lemma mem_keys_putAll {k : String} :
    k ∈ keys (putAll entries base) ↔ k ∈ keys entries ∨ k ∈ keys base := by
  induction entries generalizing base with
  | nil => simp [putAll]
  | cons entry rest ih =>
    have hrest : k ∈ keys (putAll (entry :: rest) base)
        ↔ k ∈ keys rest ∨ k ∈ keys (put entry.1 entry.2 base) := ih
    rw [hrest, mem_keys_put, keys_cons, List.mem_cons, or_left_comm, or_assoc]

/-- A collapsed list has the names it had before. -/
lemma mem_keys_collapse {k : String} : k ∈ keys (collapse entries) ↔ k ∈ keys entries := by
  rw [collapse, mem_keys_putAll, keys_nil, List.mem_nil_iff, or_false]

/-- What is found under a name in a collapsed list is the last value under it. -/
lemma lookup_collapse (k : String) : (collapse entries).lookup k = entries.reverse.lookup k := by
  rw [collapse, lookup_putAll, List.lookup_nil, Option.or_none]

lemma mem_of_mem_collapse {entry : String × α} (h : entry ∈ collapse entries) :
    entry ∈ entries := by
  have hfound := lookup_of_mem (nodup_keys_collapse entries) h
  rw [lookup_collapse] at hfound
  exact List.mem_reverse.1 (mem_of_lookup hfound)

/-- The names of a collapsed list stand where each of them stood first. -/
lemma keys_collapse (entries : List (String × α)) :
    keys (collapse entries) = (keys entries).eraseDups := by
  induction entries using List.reverseRecOn with
  | nil => rfl
  | append_singleton rest entry ih =>
    have hlast : collapse (rest ++ [entry]) = put entry.1 entry.2 (collapse rest) :=
      List.foldl_append
    rw [hlast, keys_append, List.eraseDups_append, ← ih]
    by_cases h : entry.1 ∈ keys rest
    · rw [keys_put_of_mem (mem_keys_collapse.2 h)]
      simp [List.removeAll, h]
    · rw [keys_put_of_not_mem (mt mem_keys_collapse.1 h)]
      simp [List.removeAll, h, List.eraseDups_cons]

lemma lookup_map_eq_find? {β : Type} (nameOf : β → String) (valueOf : β → α) (items : List β)
    (k : String) : (items.map fun item => (nameOf item, valueOf item)).lookup k
      = (items.find? fun item => nameOf item = k).map valueOf := by
  induction items with
  | nil => rfl
  | cons item rest ih =>
    by_cases hk : nameOf item = k
    · simp [hk]
    · rw [List.map_cons, List.lookup_cons, beq_false_of_ne (Ne.symm hk), ih]
      simp [hk]

variable {p : String → Bool}

lemma filter_put : (put name value entries).filter (fun entry => p entry.1)
    = if p name then put name value (entries.filter fun entry => p entry.1)
      else entries.filter fun entry => p entry.1 := by
  induction entries with
  | nil => cases hp : p name <;> simp [put, hp]
  | cons entry rest ih =>
    obtain ⟨k, v⟩ := entry
    by_cases hk : k = name
    · subst hk
      cases hp : p k <;> simp [put, hp]
    · cases hp : p name <;> cases hk' : p k <;> simp [put, hk, hp, hk'] at ih ⊢ <;> exact ih

/-- Entries of some names are stored among themselves. -/
lemma filter_putAll : (putAll entries base).filter (fun entry => p entry.1)
    = putAll (entries.filter fun entry => p entry.1) (base.filter fun entry => p entry.1) := by
  induction entries generalizing base with
  | nil => rfl
  | cons entry rest ih =>
    have hrest : (putAll (entry :: rest) base).filter (fun entry => p entry.1)
        = putAll (rest.filter fun entry => p entry.1)
          ((put entry.1 entry.2 base).filter fun entry => p entry.1) := ih
    rw [hrest, filter_put]
    cases hp : p entry.1 <;> simp [putAll, hp]

lemma putSorted_of_lt (h : ∀ entry ∈ entries, entry.1 < name) :
    putSorted name value entries = entries ++ [(name, value)] := by
  induction entries with
  | nil => rfl
  | cons entry rest ih =>
    obtain ⟨hlt, hrest⟩ := List.forall_mem_cons.1 h
    simp [putSorted, String.lt_asymm hlt, (String.ne_of_lt hlt).symm, ih hrest]

/-- Names that increase differ. -/
lemma Sorted.nodup (h : Sorted entries) : (keys entries).Nodup :=
  List.pairwise_map.2 (h.imp fun hlt => String.ne_of_lt hlt)

end Named

/-- The map of the entries of a map is the map itself, in its order. -/
lemma OrderedMap.ofList_entries (m : OrderedMap α) : ofList m.entries = m := by
  have hentries : Named.collapse m.entries = m.entries := Named.putAll_of_nodup m.nodup
  obtain ⟨entries, hnodup⟩ := m
  simp only [ofList, hentries]

lemma OrderedMap.get?_eq_some {m : OrderedMap α} {name : String} {value : α} :
    m.get? name = some value ↔ (name, value) ∈ m.entries :=
  ⟨Named.mem_of_lookup, fun hm => Named.lookup_of_mem m.nodup hm⟩

namespace SortedMap

lemma get?_eq_some {m : SortedMap α} {name : String} {value : α} :
    m.get? name = some value ↔ (name, value) ∈ m.entries :=
  ⟨Named.mem_of_lookup, fun hm => Named.lookup_of_mem m.sorted.nodup hm⟩

lemma ext {m n : SortedMap α} (h : m.entries = n.entries) : m = n := by
  cases m
  cases n
  cases h
  rfl

lemma foldl_insert {entries : List (String × α)} {m : SortedMap α}
    (h : Named.Sorted (m.entries ++ entries)) :
    (entries.foldl (fun m entry => m.insert entry.1 entry.2) m).entries = m.entries ++ entries := by
  induction entries generalizing m with
  | nil => exact (List.append_nil _).symm
  | cons entry rest ih =>
    have hlt : ∀ before ∈ m.entries, before.1 < entry.1 := fun before hm =>
      (List.pairwise_append.1 h).2.2 before hm entry List.mem_cons_self
    have hinsert : (m.insert entry.1 entry.2).entries = m.entries ++ [entry] :=
      Named.putSorted_of_lt hlt
    rw [List.append_cons, ← hinsert] at h ⊢
    exact ih h

lemma ofList_entries (m : SortedMap α) : ofList m.entries = m :=
  ext (foldl_insert m.sorted)

end SortedMap
end ObjectGraph
