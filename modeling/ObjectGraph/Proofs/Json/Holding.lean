/-
# Documents that hold a value

A document holds a value if nothing in it is faulty or lies too deep and its parts are those of
the value, wherever in a text they begin.  The document that is made of a value holds it, and so
does the one that is read from its text.

A reader does not tell the documents apart that hold the same value.  What it makes of the members
of a record is told by `Encodes`, member by member, which leaves open which of the optional ones
are there.
-/
import ObjectGraph.Json.Decode
import Mathlib.Data.List.Nodup
import Mathlib.Tactic.Lemma

namespace ObjectGraph.Json

variable {α π τ : Type} {doc : Document} {docs : List (String × Document)} {name : String}
  {value : Json} {ms : List (String × Json)} {parts : List (String × π)} {origin : Origin}

mutual

/-- A document without faults whose parts are those of a value. -/
inductive Document.Holds : Document → Json → Prop
  | null {start} : Document.Holds (.null start) .null
  | boolean {start b} : Document.Holds (.boolean start b) (.boolean b)
  | number {start n} : Document.Holds (.number start n) (.number n)
  | string {start s} : Document.Holds (.string start s) (.string s)
  | array {start docs items} : HoldsItems docs items →
      Document.Holds (.list start false docs {}) (.array items)
  | object {start docs sole members} : HoldsMembers docs members →
      Document.Holds (.record start false docs sole {}) (.object members)

/-- Documents that hold the items of a list, one by one. -/
inductive HoldsItems : List Document → List Json → Prop
  | nil : HoldsItems [] []
  | cons {doc docs item items} : doc.Holds item → HoldsItems docs items →
      HoldsItems (doc :: docs) (item :: items)

/-- Documents under the names of the values that they hold. -/
inductive HoldsMembers : List (String × Document) → List (String × Json) → Prop
  | nil : HoldsMembers [] []
  | cons {name doc docs value members} : doc.Holds value → HoldsMembers docs members →
      HoldsMembers ((name, doc) :: docs) ((name, value) :: members)

end

open Document (Holds)

lemma HoldsMembers.keys_eq (h : HoldsMembers docs ms) : Named.keys docs = Named.keys ms := by
  induction ms generalizing docs with
  | nil =>
    cases h
    rfl
  | cons member rest ih =>
    cases h with
    | cons _ hrest => simp [ih hrest]

mutual

lemma holds_toDocument : ∀ v : Json, v.toDocument.Holds v
  | .null => .null
  | .boolean _ => .boolean
  | .number _ => .number
  | .string _ => .string
  | .array items => .array (holds_itemsToDocuments items)
  | .object members => .object (holds_membersToDocuments members)

lemma holds_itemsToDocuments : ∀ items : List Json, HoldsItems (itemsToDocuments items) items
  | [] => .nil
  | item :: rest => .cons (holds_toDocument item) (holds_itemsToDocuments rest)

lemma holds_membersToDocuments : ∀ members : List (String × Json),
    HoldsMembers (membersToDocuments members) members
  | [] => .nil
  | (_, value) :: rest => .cons (holds_toDocument value) (holds_membersToDocuments rest)

end

/-! ### Nothing is faulty -/

mutual

lemma Document.Holds.firstFault : ∀ {v : Json} {doc : Document}, doc.Holds v →
    doc.firstFault = none
  | .null, _, h | .boolean _, _, h | .number _, _, h | .string _, _, h => by
    cases h
    rfl
  | .array _, _, h => by
    cases h with
    | array h => simp [Document.firstFault, h.itemsFault]
  | .object _, _, h => by
    cases h with
    | object h => simp [Document.firstFault, h.membersFault]

lemma HoldsItems.itemsFault : ∀ {items : List Json} {docs : List Document},
    HoldsItems docs items → Document.itemsFault docs = none
  | [], _, h => by
    cases h
    rfl
  | _ :: _, _, h => by
    cases h with
    | cons hitem hrest => simp [Document.itemsFault, hitem.firstFault, hrest.itemsFault]

lemma HoldsMembers.membersFault : ∀ {members : List (String × Json)}
    {docs : List (String × Document)}, HoldsMembers docs members →
      Document.membersFault docs = none
  | [], _, h => by
    cases h
    rfl
  | _ :: _, _, h => by
    cases h with
    | cons hvalue hrest => simp [Document.membersFault, hvalue.firstFault, hrest.membersFault]

end

lemma Document.Holds.passingFault (h : doc.Holds value) : doc.passingFault = none := by
  cases h <;> rfl

lemma HoldsMembers.passingFault (h : HoldsMembers docs ms) :
    ∀ member ∈ docs, member.2.passingFault = none := by
  induction ms generalizing docs with
  | nil =>
    cases h
    simp
  | cons _ _ ih =>
    cases h with
    | cons hvalue hrest => exact List.forall_mem_cons.2 ⟨hvalue.passingFault, ih hrest⟩

/-! ### Simple values -/

lemma decodeString_of_holds {s : String} (h : doc.Holds (.string s)) :
    decodeString doc = .ok s := by
  cases h
  rfl

lemma decodeInteger_of_holds {i low high : Int} {expected : String} (h : doc.Holds (.int i))
    (hlow : low ≤ i) (hhigh : i < high) : decodeInteger low high expected doc = .ok i := by
  cases h
  exact if_pos ⟨hlow, hhigh⟩

lemma decodeUInt32_of_holds {n : UInt32} (h : doc.Holds (.int n.toNat)) :
    decodeUInt32 doc = .ok n := by
  have hlt : n.toNat < UInt32.size := n.toNat_lt_size
  rw [decodeUInt32, decodeInteger_of_holds h (by omega) (by omega)]
  simp [Except.map]

lemma decodeUInt64_of_holds {n : UInt64} (h : doc.Holds (.int n.toNat)) :
    decodeUInt64 doc = .ok n := by
  have hlt : n.toNat < UInt64.size := n.toNat_lt_size
  rw [decodeUInt64, decodeInteger_of_holds h (by omega) (by omega)]
  simp [Except.map]

lemma decodeInt64_of_holds {i : Int64} (h : doc.Holds (.int i.toInt)) :
    decodeInt64 doc = .ok i := by
  have hlow := i.minValue_le_toInt
  have hhigh := i.toInt_le
  rw [decodeInt64, decodeInteger_of_holds h hlow (by omega)]
  simp [Except.map]

section Options

variable {decode : Document → Decoded α}

lemma decodeOption_of_null (h : doc.Holds .null) : decodeOption decode doc = .ok none := by
  cases h
  rfl

lemma decodeOption_of_holds {a : α} (h : doc.Holds value) (hv : value ≠ .null)
    (ha : decode doc = .ok a) : decodeOption decode doc = .ok (some a) := by
  cases h with
  | null => exact absurd rfl hv
  | _ => simp [decodeOption, ha, Except.map]

end Options

lemma decodeChoice_of_holds {choices : List (String × α)} {choice : α}
    (h : doc.Holds (.string name)) (hc : choices.lookup name = some choice) :
    decodeChoice origin choices doc = .ok choice := by
  cases h
  simp [decodeChoice, choose, hc]

/-! ### Lists and maps -/

section Lists

variable {decode : Document → Decoded α} {encode : α → Json}

lemma mapM_of_holdsItems {docs : List Document} {xs : List α}
    (h : HoldsItems docs (xs.map encode))
    (hd : ∀ x ∈ xs, ∀ {doc}, doc.Holds (encode x) → decode doc = .ok x) :
    docs.mapM decode = .ok xs := by
  induction xs generalizing docs with
  | nil =>
    cases h
    rfl
  | cons x rest ih =>
    obtain ⟨hx, hrest⟩ := List.forall_mem_cons.1 hd
    cases h with
    | cons hitem hitems =>
      rw [List.mapM_cons, hx hitem, ih hitems hrest]
      rfl

lemma decodeList_of_holds {xs : List α} (h : doc.Holds (.array (xs.map encode)))
    (hd : ∀ x ∈ xs, ∀ {doc}, doc.Holds (encode x) → decode doc = .ok x) :
    decodeList decode doc = .ok xs := by
  cases h with
  | array h =>
    rw [decodeList, mapM_of_holdsItems h hd]
    rfl

lemma mapM_of_holdsMembers {entries : List (String × α)}
    (h : HoldsMembers docs (entries.map fun (name, x) => (name, encode x)))
    (hd : ∀ entry ∈ entries, ∀ {doc}, doc.Holds (encode entry.2) → decode doc = .ok entry.2) :
    docs.mapM (fun (name, doc) => (decode doc).map (name, ·)) = .ok entries := by
  induction entries generalizing docs with
  | nil =>
    cases h
    rfl
  | cons entry rest ih =>
    obtain ⟨name, x⟩ := entry
    obtain ⟨hentry, hrest⟩ := List.forall_mem_cons.1 hd
    cases h with
    | cons hvalue hvalues =>
      dsimp only at hentry
      rw [List.mapM_cons, ih hvalues hrest]
      dsimp only
      rw [hentry hvalue]
      rfl

lemma decodeMap_of_holds {entries : List (String × α)}
    (h : doc.Holds (.object (entries.map fun (name, x) => (name, encode x))))
    (hd : ∀ entry ∈ entries, ∀ {doc}, doc.Holds (encode entry.2) → decode doc = .ok entry.2) :
    decodeMap decode doc = .ok entries := by
  cases h with
  | object h =>
    rw [decodeMap, mapM_of_holdsMembers h hd]
    rfl

end Lists

/-! ### Records -/

section Records

variable {part : String → Option (Document → Decoded π)}

/-- Members that are read as parts under the same names, whatever documents hold them. -/
inductive Encodes (part : String → Option (Document → Decoded π)) :
    List (String × Json) → List (String × π) → Prop
  | nil : Encodes part [] []
  | cons {name decode value p ms parts} : part name = some decode →
      (∀ {doc}, doc.Holds value → decode doc = .ok p) → Encodes part ms parts →
      Encodes part ((name, value) :: ms) ((name, p) :: parts)

namespace Encodes

variable {more : List (String × Json)} {moreParts : List (String × π)}

lemma append (h : Encodes part ms parts) (hm : Encodes part more moreParts) :
    Encodes part (ms ++ more) (parts ++ moreParts) := by
  induction h with
  | nil => exact hm
  | cons hpart hdecode _ ih => exact .cons hpart hdecode ih

lemma keys_eq (h : Encodes part ms parts) : Named.keys parts = Named.keys ms := by
  induction h with
  | nil => rfl
  | cons _ _ _ ih => simp [ih]

lemma not_mem_keys (h : Encodes part ms parts) (hnone : part name = none) :
    name ∉ Named.keys ms := by
  induction h with
  | nil => simp
  | cons hpart _ _ ih =>
    rw [Named.keys_cons, List.mem_cons, not_or]
    refine ⟨fun he => ?_, ih⟩
    subst he
    cases hnone.symm.trans hpart

lemma single {decode : Document → Decoded π} {p : π} (hpart : part name = some decode)
    (hdecode : ∀ {doc}, doc.Holds value → decode doc = .ok p) :
    Encodes part [(name, value)] [(name, p)] :=
  .cons hpart hdecode .nil

/-- A member that is left out under a condition, as its part then is. -/
lemma leftOut {decode : Document → Decoded π} {p : π} (b : Bool) (hpart : part name = some decode)
    (hdecode : ∀ {doc}, doc.Holds value → decode doc = .ok p) :
    Encodes part (if b then [] else [(name, value)]) (if b then [] else [(name, p)]) := by
  split
  · exact .nil
  · exact single hpart hdecode

lemma decodeMembers (h : Encodes part ms parts) {seen : List String}
    (hn : (Named.keys ms).Nodup) (hs : ∀ name ∈ Named.keys ms, name ∉ seen)
    (hd : HoldsMembers docs ms) : decodeMembers part seen docs = .ok parts := by
  induction h generalizing docs seen with
  | nil =>
    cases hd
    rfl
  | @cons name decode value p ms parts hpart hdecode _ ih =>
    cases hd with
    | @cons _ doc docs _ _ hvalue hrest =>
      rw [Named.keys_cons] at hn hs
      obtain ⟨hname, hn⟩ := List.nodup_cons.1 hn
      obtain ⟨hseen, hs⟩ := List.forall_mem_cons.1 hs
      have hmore : Json.decodeMembers part (name :: seen) docs = .ok parts := by
        refine ih hn (fun k hk hm => ?_) hrest
        rcases List.mem_cons.1 hm with rfl | hm
        · exact hname hk
        · exact hs k hk hm
      simp only [Json.decodeMembers, hpart, if_neg hseen, hdecode hvalue, hmore]
      rfl

/-- The parts of members that a record names each once, in this order. -/
lemma decodeMembers_of_sublist (h : Encodes part ms parts) {names : List String}
    (hs : (Named.keys ms).Sublist names) (hn : names.Nodup) (hd : HoldsMembers docs ms) :
    Json.decodeMembers part [] docs = .ok parts :=
  h.decodeMembers (hn.sublist hs) (by simp) hd

end Encodes

lemma keys_leftOut (b : Bool) (name : String) (value : Json) :
    (Named.keys (if b then [] else [(name, value)])).Sublist [name] := by
  split
  · exact List.nil_sublist _
  · exact .refl _

/-- A record that is held as an object is read as its parts. -/
lemma Encodes.decodeRecord (shape : Shape) (origin : Origin) (h : Encodes part ms parts)
    (hs : (Named.keys ms).Sublist shape.names) (hn : shape.names.Nodup)
    (hd : doc.Holds (.object ms)) :
    decodeRecord shape origin part doc = .ok ⟨shape, false, parts⟩ := by
  cases hd with
  | object hd =>
    simp only [Json.decodeRecord, h.decodeMembers_of_sublist hs hn hd]
    rfl

/-! ### Tagged records -/

variable {variants : List (String × τ)} {variant : τ} {tag : String}

lemma findTag_of_holds (hd : HoldsMembers docs ms) (ht : tagName ∉ Named.keys ms) :
    findTag origin variants (some variant) docs = .ok (some variant) := by
  induction ms generalizing docs with
  | nil =>
    cases hd
    rfl
  | cons member rest ih =>
    cases hd with
    | @cons name doc _ value _ hvalue hrest =>
      rw [Named.keys_cons, List.mem_cons, not_or] at ht
      simp only [findTag, if_neg (Ne.symm ht.1), hvalue.firstFault, ih hrest ht.2]
      rfl

/-- The tag of a record stands before its other members. -/
lemma variantOfMembers_of_holds {tagDoc : Document} (htag : tagDoc.Holds (.string tag))
    (hd : HoldsMembers docs ms) (hv : variants.lookup tag = some variant)
    (ht : tagName ∉ Named.keys ms) :
    variantOfMembers origin variants ((tagName, tagDoc) :: docs) {} = .ok variant := by
  cases htag
  simp only [variantOfMembers, findTag, if_true, decodeTag, choose, hv, Option.isSome_none]
  have hfind : findTag origin variants (some variant) docs = .ok (some variant) :=
    findTag_of_holds hd ht
  simp [bind, Except.bind, hfind, unlessFault]

lemma untagged_of_holds (hd : HoldsMembers docs ms) (ht : tagName ∉ Named.keys ms) :
    untagged docs = docs := by
  rw [← hd.keys_eq] at ht
  refine List.filter_eq_self.2 fun member hm => ?_
  have hne : member.1 ≠ tagName := fun he => ht (he ▸ List.mem_map_of_mem hm)
  simpa using hne

/-- The tag stands first in a record that is written, and its members are read as parts. -/
lemma Encodes.afterTag (origin : Origin) (h : Encodes part ms parts)
    (hv : variants.lookup tag = some variant) (ht : part tagName = none) {names : List String}
    (hs : (Named.keys ms).Sublist names) (hn : names.Nodup)
    (hd : HoldsMembers docs ((tagName, .string tag) :: ms)) :
    variantOfMembers origin variants docs {} = .ok variant ∧
      Json.decodeMembers part [] docs = .ok parts := by
  cases hd with
  | cons htag hd =>
    refine ⟨variantOfMembers_of_holds htag hd hv (h.not_mem_keys ht), ?_⟩
    simp [Json.decodeMembers, ht, htag.passingFault, unlessFault, bind, Except.bind,
      h.decodeMembers_of_sublist hs hn hd]

/-- A tagged record that is held as an object is read as its variant and the parts of it. -/
lemma Encodes.decodeTagged (shape : τ → Shape) (part : τ → String → Option (Document → Decoded π))
    {expected : String} (h : Encodes (part variant) ms parts)
    (hv : variants.lookup tag = some variant) (ht : part variant tagName = none)
    (hs : (Named.keys ms).Sublist (shape variant).names) (hn : (shape variant).names.Nodup)
    (hd : doc.Holds (.object ((tagName, .string tag) :: ms))) :
    decodeTagged expected origin variants shape part doc =
      .ok (variant, ⟨shape variant, false, parts⟩) := by
  cases hd with
  | object hd =>
    cases hd with
    | @cons _ tagDoc docs _ _ htag hd =>
      have hnot := h.not_mem_keys ht
      have hvariant :
          variantOfMembers origin variants ((tagName, tagDoc) :: docs) {} = .ok variant :=
        variantOfMembers_of_holds htag hd hv hnot
      have huntagged : untagged ((tagName, tagDoc) :: docs) = docs := by
        rw [← untagged_of_holds hd hnot]
        simp [untagged]
      have hmembers := h.decodeMembers_of_sublist hs hn hd
      simp [Json.decodeTagged, enter, bind, Except.bind, pure, Except.pure, hvariant, huntagged,
        hmembers]

end Records

end ObjectGraph.Json
