/-
# Named values in order

Lists of values under names.  `put` keeps the position of a name that is there already, so a
list built by `put` alone names nothing twice.  `OrderedMap` is such a list, in the order in
which its names were first put; `SortedMap` is one in the order of its names.
-/

namespace ObjectGraph

namespace Named

variable {α β : Type}

/-- Store a value under a name: in the place of the value there already, or at the end. -/
def put (name : String) (value : α) : List (String × α) → List (String × α)
  | [] => [(name, value)]
  | (k, v) :: rest => if k = name then (name, value) :: rest else (k, v) :: put name value rest

/-- Store every entry in turn. -/
def putAll (entries base : List (String × α)) : List (String × α) :=
  entries.foldl (fun acc entry => put entry.1 entry.2 acc) base

/-- The list that names nothing twice: every name in its first place with its last value. -/
def collapse (entries : List (String × α)) : List (String × α) :=
  putAll entries []

/-- The names of a list. -/
def keys (entries : List (String × α)) : List String :=
  entries.map Prod.fst

@[simp] theorem keys_nil : keys ([] : List (String × α)) = [] := rfl

@[simp] theorem keys_cons (entry : String × α) (rest : List (String × α)) :
    keys (entry :: rest) = entry.1 :: keys rest := rfl

theorem mem_of_lookup {name : String} {value : α} {entries : List (String × α)}
    (h : entries.lookup name = some value) : (name, value) ∈ entries := by
  obtain ⟨before, behind, rfl, -⟩ := List.lookup_eq_some_iff.1 h
  exact List.mem_append_right _ List.mem_cons_self

theorem mem_keys_put {name k : String} {value : α} {entries : List (String × α)} :
    k ∈ keys (put name value entries) ↔ k = name ∨ k ∈ keys entries := by
  induction entries with
  | nil => simp [put]
  | cons entry rest ih =>
    obtain ⟨k', v⟩ := entry
    by_cases h : k' = name
    · subst h; simp [put]
    · simp only [put, h, if_false, keys_cons, List.mem_cons, ih]
      constructor
      · rintro (h | h | h) <;> simp [h]
      · rintro (h | h | h) <;> simp [h]

theorem nodup_keys_put {name : String} {value : α} {entries : List (String × α)}
    (h : (keys entries).Nodup) : (keys (put name value entries)).Nodup := by
  induction entries with
  | nil => simp [put]
  | cons entry rest ih =>
    obtain ⟨k, v⟩ := entry
    simp only [keys_cons, List.nodup_cons] at h
    by_cases hk : k = name
    · subst hk; simpa [put] using h
    · simp only [put, hk, if_false, keys_cons, List.nodup_cons]
      exact ⟨fun hm => (mem_keys_put.1 hm).elim hk h.1, ih h.2⟩

theorem nodup_keys_putAll {entries base : List (String × α)} (h : (keys base).Nodup) :
    (keys (putAll entries base)).Nodup := by
  induction entries generalizing base with
  | nil => exact h
  | cons entry rest ih => exact ih (nodup_keys_put h)

theorem nodup_keys_collapse (entries : List (String × α)) : (keys (collapse entries)).Nodup :=
  nodup_keys_putAll List.nodup_nil

/-- Store a value under a name in a list that is in the order of its names. -/
def putSorted (name : String) (value : α) : List (String × α) → List (String × α)
  | [] => [(name, value)]
  | (k, v) :: rest =>
    if name < k then (name, value) :: (k, v) :: rest
    else if name = k then (name, value) :: rest
    else (k, v) :: putSorted name value rest

/-- The names of a list increase. -/
def Sorted (entries : List (String × α)) : Prop :=
  entries.Pairwise fun a b => a.1 < b.1

theorem mem_putSorted {name : String} {value : α} {entry : String × α}
    {entries : List (String × α)} (h : entry ∈ putSorted name value entries) :
    entry = (name, value) ∨ entry ∈ entries := by
  induction entries with
  | nil => simpa [putSorted] using h
  | cons head rest ih =>
    obtain ⟨k, v⟩ := head
    simp only [putSorted] at h
    split at h
    · simpa using h
    · split at h
      · simp only [List.mem_cons] at h ⊢
        exact h.imp_right Or.inr
      · simp only [List.mem_cons] at h ⊢
        rcases h with h | h
        · exact Or.inr (Or.inl h)
        · exact (ih h).imp_right Or.inr

theorem sorted_putSorted {name : String} {value : α} {entries : List (String × α)}
    (h : Sorted entries) : Sorted (putSorted name value entries) := by
  induction entries with
  | nil => simp [putSorted, Sorted]
  | cons head rest ih =>
    obtain ⟨k, v⟩ := head
    obtain ⟨hk, hr⟩ := List.pairwise_cons.1 h
    simp only [putSorted]
    split
    · rename_i hlt
      refine List.pairwise_cons.2 ⟨fun entry hm => ?_, h⟩
      rcases List.mem_cons.1 hm with rfl | hm
      · exact hlt
      · exact String.lt_trans hlt (hk entry hm)
    · split
      · rename_i heq
        subst heq
        exact List.pairwise_cons.2 ⟨hk, hr⟩
      · rename_i hnlt hne
        refine List.pairwise_cons.2 ⟨fun entry hm => ?_, ih hr⟩
        rcases mem_putSorted hm with rfl | hm
        · have hle : k ≤ name := hnlt
          exact (Std.lt_of_le_of_ne hle (Ne.symm hne))
        · exact hk entry hm

end Named

/-- Values under names that differ, in an order of their own. -/
structure OrderedMap (α : Type) where
  entries : List (String × α)
  nodup : (Named.keys entries).Nodup
deriving DecidableEq

namespace OrderedMap

variable {α : Type}

/-- The map without entries. -/
def empty : OrderedMap α := ⟨[], List.nodup_nil⟩

instance : Inhabited (OrderedMap α) := ⟨empty⟩

/-- Whether a map has no entries. -/
def isEmpty (m : OrderedMap α) : Bool := m.entries.isEmpty

/-- The number of entries. -/
def size (m : OrderedMap α) : Nat := m.entries.length

/-- The names of the entries, in the order in which they were inserted. -/
def keys (m : OrderedMap α) : List String := Named.keys m.entries

/-- The values of the entries, in the order in which they were inserted. -/
def values (m : OrderedMap α) : List α := m.entries.map Prod.snd

/-- The value under a name. -/
def get? (m : OrderedMap α) (name : String) : Option α := m.entries.lookup name

/-- Whether there is an entry under a name. -/
def contains (m : OrderedMap α) (name : String) : Bool := (m.get? name).isSome

/-- Store a value under a name; a name that is there already keeps its place. -/
def insert (m : OrderedMap α) (name : String) (value : α) : OrderedMap α :=
  ⟨Named.put name value m.entries, Named.nodup_keys_put m.nodup⟩

/-- The entries of a list: every name in its first place with its last value. -/
def ofList (entries : List (String × α)) : OrderedMap α :=
  ⟨Named.collapse entries, Named.nodup_keys_collapse entries⟩

end OrderedMap

/-- Values under names that differ, in the order of the names. -/
structure SortedMap (α : Type) where
  entries : List (String × α)
  sorted : Named.Sorted entries

namespace SortedMap

variable {α : Type}

instance [DecidableEq α] : DecidableEq (SortedMap α) := fun a b =>
  if h : a.entries = b.entries then isTrue (by cases a; cases b; simp_all)
  else isFalse fun hab => h (hab ▸ rfl)

/-- The map without entries. -/
def empty : SortedMap α := ⟨[], List.Pairwise.nil⟩

instance : Inhabited (SortedMap α) := ⟨empty⟩

/-- The names of the entries, in increasing order. -/
def keys (m : SortedMap α) : List String := Named.keys m.entries

/-- The value under a name. -/
def get? (m : SortedMap α) (name : String) : Option α := m.entries.lookup name

/-- Whether there is an entry under a name. -/
def contains (m : SortedMap α) (name : String) : Bool := (m.get? name).isSome

/-- Store a value under a name, in the place of the value there already. -/
def insert (m : SortedMap α) (name : String) (value : α) : SortedMap α :=
  ⟨Named.putSorted name value m.entries, Named.sorted_putSorted m.sorted⟩

/-- The entries of a list, the last one of every name. -/
def ofList (entries : List (String × α)) : SortedMap α :=
  entries.foldl (fun m entry => m.insert entry.1 entry.2) empty

end SortedMap
end ObjectGraph
