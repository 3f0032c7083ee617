/-
# Equality of values

Two objects are equal when they have the same number of members and every member of the one has an
equal one of the same name in the other.  This looks at one of the objects only; where no object
names a member twice it is an equivalence all the same.
-/
import ObjectGraph.Json
import ObjectGraph.Proofs.Named
import Mathlib.Data.List.Perm.Subperm

namespace ObjectGraph.Json

variable {b : Json} {items : List Json} {members fields : List (String × Json)}

/-! ### Members and numbers -/

lemma sameMembers_iff : sameMembers members fields = true ↔
    ∀ entry ∈ members, ∃ value, fields.lookup entry.1 = some value ∧ entry.2.same value = true := by
  induction members with
  | nil => simp [sameMembers]
  | cons entry rest ih =>
    obtain ⟨name, value⟩ := entry
    rw [sameMembers, Bool.and_eq_true, ih, List.forall_mem_cons]
    cases fields.lookup name <;> simp

lemma MembersWellFormed.of_mem (h : MembersWellFormed members) :
    ∀ entry ∈ members, entry.2.WellFormed := by
  induction members with
  | nil => simp
  | cons entry rest ih =>
    obtain ⟨hvalue, hrest⟩ := h
    exact List.forall_mem_cons.2 ⟨hvalue, ih hrest⟩

lemma Number.same_self (n : Number) : n.same n = true := by
  cases n <;> simp [Number.same, Double.equals]

lemma Number.same_symm {m n : Number} (h : m.same n = true) : n.same m = true := by
  cases m <;> cases n <;> simp_all [Number.same, Double.equals]

lemma Number.same_trans {k m n : Number} (h : k.same m = true) (h' : m.same n = true) :
    k.same n = true := by
  cases k <;> cases m <;> cases n <;> simp_all [Number.same, Double.equals]

/-! ### What equals a value of a kind -/

lemma same_null : null.same b = true ↔ b = null := by
  cases b <;> simp [same]

lemma same_boolean {p : Bool} : (boolean p).same b = true ↔ b = boolean p := by
  cases b with
  | boolean q => rw [same, beq_iff_eq, boolean.injEq, eq_comm]
  | _ => simp [same]

lemma same_number {n : Number} :
    (number n).same b = true ↔ ∃ m, b = number m ∧ n.same m = true := by
  cases b <;> simp [same]

lemma same_string {text : String} : (string text).same b = true ↔ b = string text := by
  cases b with
  | string other => rw [same, beq_iff_eq, string.injEq, eq_comm]
  | _ => simp [same]

lemma same_array : (array items).same b = true ↔
    ∃ others, b = array others ∧ sameItems items others = true := by
  cases b <;> simp [same]

lemma same_object : (object members).same b = true ↔
    ∃ fields, b = object fields ∧ members.length = fields.length ∧
      sameMembers members fields = true := by
  cases b <;> simp [same]

/-! ### An equivalence -/

mutual

lemma same_self : ∀ {a : Json}, a.WellFormed → a.same a = true
  | null, _ => rfl
  | boolean _, _ | string _, _ => beq_self_eq_true _
  | number n, _ => n.same_self
  | array items, h => sameItems_self h
  | object members, h => by
    rw [same, beq_self_eq_true, Bool.true_and, sameMembers_iff]
    exact fun entry hm => ⟨entry.2, Named.lookup_of_mem h.1 hm, member_same_self h.2 entry hm⟩

lemma sameItems_self : ∀ {items : List Json}, ItemsWellFormed items → sameItems items items = true
  | [], _ => rfl
  | item :: rest, h => by
    rw [sameItems, same_self h.1, sameItems_self h.2]
    rfl

lemma member_same_self : ∀ {members : List (String × Json)}, MembersWellFormed members →
    ∀ entry ∈ members, entry.2.same entry.2 = true
  | [], _ => by simp
  | (_, value) :: rest, h => List.forall_mem_cons.2 ⟨same_self h.1, member_same_self h.2⟩

end

mutual

lemma same_trans : ∀ {a b c : Json}, a.same b = true → b.same c = true → a.same c = true
  | null, b, c, h, h' => by
    obtain rfl := same_null.1 h
    exact h'
  | boolean p, b, c, h, h' => by
    obtain rfl := same_boolean.1 h
    exact h'
  | string text, b, c, h, h' => by
    obtain rfl := same_string.1 h
    exact h'
  | number n, b, c, h, h' => by
    obtain ⟨m, rfl, hm⟩ := same_number.1 h
    obtain ⟨k, rfl, hk⟩ := same_number.1 h'
    exact same_number.2 ⟨k, rfl, Number.same_trans hm hk⟩
  | array items, b, c, h, h' => by
    obtain ⟨others, rfl, hitems⟩ := same_array.1 h
    obtain ⟨last, rfl, hothers⟩ := same_array.1 h'
    exact same_array.2 ⟨last, rfl, sameItems_trans hitems hothers⟩
  | object members, b, c, h, h' => by
    obtain ⟨fields, rfl, hlength, hmembers⟩ := same_object.1 h
    obtain ⟨entries, rfl, hlength', hfields⟩ := same_object.1 h'
    refine same_object.2 ⟨entries, rfl, hlength.trans hlength', sameMembers_iff.2 ?_⟩
    intro entry hm
    obtain ⟨value, hvalue, hsame⟩ := sameMembers_iff.1 hmembers entry hm
    obtain ⟨found, hfound, hsame'⟩ := sameMembers_iff.1 hfields _ (Named.mem_of_lookup hvalue)
    exact ⟨found, hfound, member_same_trans entry hm hsame hsame'⟩

lemma sameItems_trans : ∀ {items others last : List Json}, sameItems items others = true →
    sameItems others last = true → sameItems items last = true
  | [], [], _, _, h' => h'
  | item :: rest, other :: others, [], _, h' => by simp [sameItems] at h'
  | item :: rest, other :: others, final :: last, h, h' => by
    rw [sameItems, Bool.and_eq_true] at h h' ⊢
    exact ⟨same_trans h.1 h'.1, sameItems_trans h.2 h'.2⟩

lemma member_same_trans : ∀ {members : List (String × Json)}, ∀ entry ∈ members,
    ∀ {b c : Json}, entry.2.same b = true → b.same c = true → entry.2.same c = true
  | (_, value) :: rest, entry, hm, b, c, h, h' => by
    rcases List.mem_cons.1 hm with rfl | hm
    · exact same_trans h h'
    · exact member_same_trans entry hm h h'

end

mutual

lemma same_symm : ∀ {a b : Json}, a.WellFormed → b.WellFormed → a.same b = true → b.same a = true
  | null, b, _, _, h => by rw [same_null.1 h]; rfl
  | boolean p, b, _, _, h => by rw [same_boolean.1 h]; exact beq_self_eq_true _
  | string text, b, _, _, h => by rw [same_string.1 h]; exact beq_self_eq_true _
  | number n, b, _, _, h => by
    obtain ⟨m, rfl, hm⟩ := same_number.1 h
    exact same_number.2 ⟨n, rfl, Number.same_symm hm⟩
  | array items, b, ha, hb, h => by
    obtain ⟨others, rfl, hitems⟩ := same_array.1 h
    exact same_array.2 ⟨items, rfl, sameItems_symm ha hb hitems⟩
  | object members, b, ha, hb, h => by
    obtain ⟨fields, rfl, hlength, hmembers⟩ := same_object.1 h
    refine same_object.2 ⟨members, rfl, hlength.symm, sameMembers_iff.2 fun entry hm => ?_⟩
    have hvalue : entry.2.WellFormed := hb.2.of_mem entry hm
    -- the names on the left are among those on the right, and as many
    have hnames : Named.keys members ⊆ Named.keys fields := by
      intro name hname
      obtain ⟨other, hother, rfl⟩ := List.mem_map.1 hname
      obtain ⟨value, hfound, -⟩ := sameMembers_iff.1 hmembers other hother
      exact List.mem_map.2 ⟨(other.1, value), Named.mem_of_lookup hfound, rfl⟩
    have hperm : (Named.keys members).Perm (Named.keys fields) :=
      (List.subperm_of_subset ha.1 hnames).perm_of_length_le (by simp [Named.keys, hlength])
    obtain ⟨other, hother, hname⟩ := List.mem_map.1 (hperm.mem_iff.2 (List.mem_map_of_mem hm))
    obtain ⟨value, hfound, hsame⟩ := sameMembers_iff.1 hmembers other hother
    rw [hname, Named.lookup_of_mem hb.1 hm] at hfound
    obtain rfl := Option.some.inj hfound
    refine ⟨other.2, ?_, member_same_symm ha.2 other hother hvalue hsame⟩
    rw [← hname]
    exact Named.lookup_of_mem ha.1 hother

lemma sameItems_symm : ∀ {items others : List Json}, ItemsWellFormed items →
    ItemsWellFormed others → sameItems items others = true → sameItems others items = true
  | [], [], _, _, _ => rfl
  | [], _ :: _, _, _, h | _ :: _, [], _, _, h => by simp [sameItems] at h
  | item :: rest, other :: others, hi, ho, h => by
    rw [sameItems, Bool.and_eq_true] at h ⊢
    exact ⟨same_symm hi.1 ho.1 h.1, sameItems_symm hi.2 ho.2 h.2⟩

lemma member_same_symm : ∀ {members : List (String × Json)}, MembersWellFormed members →
    ∀ entry ∈ members, ∀ {b : Json}, b.WellFormed → entry.2.same b = true →
      b.same entry.2 = true
  | (_, value) :: rest, hw, entry, hm, b, hb, h => by
    rcases List.mem_cons.1 hm with rfl | hm
    · exact same_symm hw.1 hb h
    · exact member_same_symm hw.2 entry hm hb h

end

/-- Equal values equal the same values. -/
lemma same_congr {a b : Json} (ha : a.WellFormed) (hb : b.WellFormed) (h : a.same b = true)
    (c : Json) : a.same c = b.same c :=
  Bool.eq_iff_iff.2 ⟨same_trans (same_symm ha hb h), same_trans h⟩

end ObjectGraph.Json
