/-
# Reading atoms

What the reader of predicates does below its chains: it cuts a reference at the first dot, turns
comparisons with null into checks for null, reads lists up to the token that closes them, and
looks at no more than two tokens after a field to know what compares it.  Each piece is read as
its part of the grammar has it, and every part of the grammar is read.
-/
import ObjectGraph.Proofs.Predicate.Grammar
import ObjectGraph.Proofs.Predicate.Lexing

namespace ObjectGraph.Predicate

variable {ts rest : List Placed} {reference field : String} {p : Predicate}

/-- A reader gives a value and leaves a rest. -/
def Reads {α : Type} {ts : List Placed} (result : Except ParseError (Parsed α ts)) (value : α)
    (rest : List Placed) : Prop :=
  ∃ h, result = .ok ⟨value, rest, h⟩

lemma bare_eq_cons {t : Token} {tail : List Token} :
    bare ts = t :: tail ↔ ∃ position ts', ts = ⟨t, position⟩ :: ts' ∧ bare ts' = tail := by
  rw [bare, List.map_eq_cons_iff]
  constructor
  · rintro ⟨placed, ts', rfl, rfl, rfl⟩
    exact ⟨placed.position, ts', rfl, rfl⟩
  · rintro ⟨position, ts', rfl, rfl⟩
    exact ⟨⟨t, position⟩, ts', rfl, rfl, rfl⟩

lemma bare_cons {token : Token} {position : Nat} :
    bare (⟨token, position⟩ :: ts) = token :: bare ts :=
  rfl

/-! ### Fields and comparisons -/

lemma unqualified_eq_self (h : '.' ∉ reference.toList) : unqualified reference = reference := by
  have hd : reference.toList.dropWhile (· != '.') = [] :=
    List.dropWhile_eq_nil_iff.2 fun c hc => by
      simpa using ne_of_mem_of_not_mem hc h
  rw [unqualified, hd]

lemma unqualified_append {object field : String} (h : '.' ∉ object.toList) :
    unqualified (object ++ "." ++ field) = field := by
  have hd : (object ++ "." ++ field).toList.dropWhile (· != '.') = '.' :: field.toList := by
    rw [String.toList_append, String.toList_append, List.append_assoc,
      List.dropWhile_append_of_pos fun c hc => by simpa using ne_of_mem_of_not_mem hc h]
    rfl
  rw [unqualified, hd]
  exact String.ofList_toList

/-- A reference is cut at its first dot. -/
lemma eq_append_unqualified (h : '.' ∈ reference.toList) :
    ∃ object : String, '.' ∉ object.toList ∧
      reference = object ++ "." ++ unqualified reference := by
  have hd : ∃ field, reference.toList.dropWhile (· != '.') = '.' :: field := by
    cases hd : reference.toList.dropWhile (· != '.') with
    | nil => simpa using List.dropWhile_eq_nil_iff.1 hd '.' h
    | cons c field =>
      have := List.dropWhile_get_zero_not (· != '.') reference.toList (by simp [hd])
      simp [hd] at this
      exact ⟨field, by rw [this]⟩
  obtain ⟨field, hd⟩ := hd
  refine ⟨String.ofList (reference.toList.takeWhile (· != '.')), ?_, ?_⟩
  · intro hm
    rw [String.toList_ofList] at hm
    simpa using List.mem_takeWhile_imp hm
  · have hu : unqualified reference = String.ofList field := by rw [unqualified, hd]
    rw [hu, ← String.toList_inj]
    simp only [String.toList_append, String.toList_ofList, List.append_assoc]
    exact (hd ▸ List.takeWhile_append_dropWhile).symm

lemma fieldName_eq_ok : fieldName reference = .ok field ↔ Names reference field := by
  rw [fieldName]
  constructor
  · intro h
    split at h
    · cases h
    · rename_i hn
      cases h
      obtain ⟨hne, hdot⟩ := not_or.1 hn
      refine ⟨hne, hdot, ?_⟩
      by_cases hr : '.' ∈ reference.toList
      · exact .inr (eq_append_unqualified hr)
      · exact .inl (unqualified_eq_self hr).symm
  · rintro ⟨hne, hdot, rfl | ⟨object, ho, rfl⟩⟩
    · rw [unqualified_eq_self hdot, if_neg (not_or.2 ⟨hne, hdot⟩)]
    · rw [unqualified_append ho, if_neg (not_or.2 ⟨hne, hdot⟩)]

lemma compareWith_eq_ok {op : ComparisonOperator} {value : Literal} :
    compareWith field op value = .ok p ↔ Compares field op value p := by
  constructor
  · intro h
    cases value with
    | null =>
      cases op <;> cases h
      · exact .isNull
      · exact .isNotNull
    | boolean | integer | float | string => cases op <;> cases h <;> exact .comparison nofun
  · intro h
    cases h with
    | isNull => rfl
    | isNotNull => rfl
    | comparison hn => cases value <;> first | exact absurd rfl hn | cases op <;> rfl

/-! ### Lists of values -/

lemma listItems_sound {bracketed : Bool} {values : List Literal}
    (h : listItems (closing bracketed) ts = .ok (values, rest)) :
    ∃ v : Values, v.list = values ∧ bare ts = v.tokens ++ closing bracketed :: bare rest := by
  fun_induction listItems (closing bracketed) ts generalizing values rest with
  | case1 => cases h
  | case2 t ts ht =>
    cases h
    exact ⟨.none, rfl, by simp [ht, Values.tokens]⟩
  | case3 => cases h
  | case4 t _ value next ts ht hcomma values' rest' hitems ih =>
    cases h
    obtain ⟨v, rfl, hv⟩ := ih hitems
    exact ⟨.more value v, rfl, by simp [ht, hcomma, Values.tokens, ← hv]⟩
  | case5 => cases h
  | case6 t _ value next ts ht _ hclose =>
    cases h
    exact ⟨.last value, rfl, by simp [ht, hclose, Values.tokens]⟩
  | case7 => cases h
  | case8 => cases h

lemma listItems_complete {bracketed : Bool} {v : Values} {tail : List Token}
    (h : bare ts = v.tokens ++ closing bracketed :: tail) :
    ∃ rest, listItems (closing bracketed) ts = .ok (v.list, rest) ∧ bare rest = tail := by
  have hl (value : Literal) : Token.literal value ≠ closing bracketed := by
    cases bracketed <;> simp [closing]
  have hc : closing bracketed ≠ .comma := by cases bracketed <;> simp [closing]
  induction v generalizing ts with
  | none =>
    obtain ⟨position, after, rfl, htail⟩ := bare_eq_cons.1 h
    refine ⟨after, ?_, htail⟩
    rw [listItems.eq_def]
    simp [Values.list]
  | last value =>
    obtain ⟨position, ts, rfl, hclose⟩ := bare_eq_cons.1 h
    obtain ⟨position, after, rfl, htail⟩ := bare_eq_cons.1 hclose
    refine ⟨after, ?_, htail⟩
    rw [listItems.eq_def]
    simp [Values.list, hl, hc]
  | more value v ih =>
    obtain ⟨position, ts, rfl, hcomma⟩ := bare_eq_cons.1 h
    obtain ⟨position, ts, rfl, hrest⟩ := bare_eq_cons.1 hcomma
    obtain ⟨after, hitems, htail⟩ := ih hrest
    refine ⟨after, ?_, htail⟩
    rw [listItems.eq_def]
    simp [Values.list, hl, hitems]

/-- What stands between an opening and its closing token is read as items. -/
lemma reads_literalList {bracketed : Bool} {position : Nat} {values : List Literal} :
    Reads (literalList (⟨opening bracketed, position⟩ :: ts)) values rest ↔
      listItems (closing bracketed) ts = .ok (values, rest) := by
  cases bracketed
  all_goals
    simp only [Reads, literalList, opening, closing, if_true, if_false, Bool.false_eq_true]
    constructor
    · rintro ⟨hlt, h⟩
      split at h
      · rename_i hitems
        cases h
        exact hitems
      · cases h
    · intro h
      refine ⟨Nat.lt_succ_of_lt (length_listItems h), ?_⟩
      split
      · rename_i hitems
        cases hitems.symm.trans h
        rfl
      · rename_i hitems
        cases hitems.symm.trans h

lemma literalList_sound {values : List Literal} (h : Reads (literalList ts) values rest) :
    ∃ l : Enclosed, l.values.list = values ∧ bare ts = l.tokens ++ bare rest := by
  have hopen : ∃ bracketed position ts', ts = ⟨opening bracketed, position⟩ :: ts' := by
    obtain ⟨hlt, h⟩ := h
    cases ts with
    | nil => cases h
    | cons t ts =>
      obtain ⟨token, position⟩ := t
      cases token with
      | openParen => exact ⟨false, position, ts, rfl⟩
      | openBracket => exact ⟨true, position, ts, rfl⟩
      | _ => cases h
  obtain ⟨bracketed, position, ts, rfl⟩ := hopen
  obtain ⟨v, rfl, hv⟩ := listItems_sound (reads_literalList.1 h)
  exact ⟨⟨bracketed, v⟩, rfl, by simp [Enclosed.tokens, bare, ← hv]⟩

lemma literalList_complete {l : Enclosed} {tail : List Token} (h : bare ts = l.tokens ++ tail) :
    ∃ rest, Reads (literalList ts) l.values.list rest ∧ bare rest = tail := by
  obtain ⟨bracketed, v⟩ := l
  simp only [Enclosed.tokens, List.cons_append, List.append_assoc, List.nil_append,
    bare_eq_cons] at h
  obtain ⟨position, ts, rfl, hv⟩ := h
  obtain ⟨after, hitems, htail⟩ := listItems_complete hv
  exact ⟨after, reads_literalList.2 hitems, htail⟩

/-! ### Atoms -/

lemma afterField_sound {after : { rest : List Placed // rest.length ≤ ts.length }}
    (hn : Names reference field) (h : afterField field ts = .ok (p, after)) :
    ∃ a : Atom, a.Denotes p ∧ .identifier reference :: bare ts = a.tokens ++ bare after.1 := by
  unfold afterField at h
  split at h
  · cases h
  · rename_i op _ value _ rest
    obtain ⟨q, hc, he⟩ := map_eq_ok.1 h
    cases he
    exact ⟨.comparison reference op value, .comparison hn (compareWith_eq_ok.1 hc), rfl⟩
  · cases h
  · rename_i rest
    obtain ⟨⟨values, after, hlt⟩, hl, he⟩ := map_eq_ok.1 h
    cases he
    obtain ⟨l, rfl, hread⟩ := literalList_sound ⟨_, hl⟩
    exact ⟨.member reference l, .member hn, by simp [Atom.tokens, ← hread]⟩
  · rename_i rest
    obtain ⟨⟨values, after, hlt⟩, hl, he⟩ := map_eq_ok.1 h
    cases he
    obtain ⟨l, rfl, hread⟩ := literalList_sound ⟨_, hl⟩
    exact ⟨.nonMember reference l, .nonMember hn, by simp [Atom.tokens, ← hread]⟩
  · obtain ⟨q, hc, he⟩ := map_eq_ok.1 h
    cases he
    cases hc
    exact ⟨.alone reference, .alone hn, rfl⟩

lemma afterLiteral_sound {value : Literal} (h : Reads (afterLiteral value ts) p rest) :
    ∃ a : Atom, a.Denotes p ∧ .literal value :: bare ts = a.tokens ++ bare rest := by
  obtain ⟨hlt, h⟩ := h
  unfold afterLiteral at h
  split at h
  · cases h
  · cases h
  · rename_i op _ name _ _
    split at h
    · cases h
    · rename_i field hf
      obtain ⟨q, hc, he⟩ := map_eq_ok.1 h
      cases he
      exact ⟨.flipped value op name, .flipped (fieldName_eq_ok.1 hf) (compareWith_eq_ok.1 hc), rfl⟩
  · cases h
  · cases h

/-- Where nothing goes on that could be compared with it, a field stands alone. -/
lemma afterField_alone (h : Opens afterNot (bare ts)) :
    afterField field ts = .ok (.comparison field .equals (.boolean true), ⟨ts, Nat.le_refl _⟩) := by
  cases ts with
  | nil => rfl
  | cons t ts =>
    obtain ⟨token, position⟩ := t
    simp only [bare, List.map_cons, opens_cons, afterNot, afterAnd, afterOr, List.mem_cons,
      List.not_mem_nil, or_false] at h
    obtain rfl | rfl | rfl := h <;> rfl

lemma primary_atom {a : Atom} {tail : List Token} (ha : a.Denotes p)
    (h : bare ts = a.tokens ++ tail) (ht : Opens afterNot tail) :
    ∃ rest, Reads (primary ts) p rest ∧ bare rest = tail := by
  cases ha with
  | comparison hn hc =>
    simp only [Atom.tokens, List.cons_append, List.nil_append, bare_eq_cons] at h
    obtain ⟨_, _, rfl, _, _, rfl, _, after, rfl, htail⟩ := h
    refine ⟨after, ⟨by simp only [List.length_cons]; omega, ?_⟩, htail⟩
    rw [primary.eq_def]
    simp [fieldName_eq_ok.2 hn, afterField, compareWith_eq_ok.2 hc, Except.map]
  | flipped hn hc =>
    simp only [Atom.tokens, List.cons_append, List.nil_append, bare_eq_cons] at h
    obtain ⟨_, _, rfl, _, _, rfl, _, after, rfl, htail⟩ := h
    refine ⟨after, ⟨by simp only [List.length_cons]; omega, ?_⟩, htail⟩
    rw [primary.eq_def]
    simp [fieldName_eq_ok.2 hn, afterLiteral, compareWith_eq_ok.2 hc, Except.map]
  | member hn =>
    simp only [Atom.tokens, List.cons_append, bare_eq_cons] at h
    obtain ⟨_, _, rfl, _, _, rfl, hlist⟩ := h
    obtain ⟨after, ⟨hlt, hread⟩, htail⟩ := literalList_complete hlist
    refine ⟨after, ⟨by simp only [List.length_cons]; omega, ?_⟩, htail⟩
    rw [primary.eq_def]
    simp [fieldName_eq_ok.2 hn, afterField, hread, Except.map]
  | nonMember hn =>
    simp only [Atom.tokens, List.cons_append, bare_eq_cons] at h
    obtain ⟨_, _, rfl, _, _, rfl, _, _, rfl, hlist⟩ := h
    obtain ⟨after, ⟨hlt, hread⟩, htail⟩ := literalList_complete hlist
    refine ⟨after, ⟨by simp only [List.length_cons]; omega, ?_⟩, htail⟩
    rw [primary.eq_def]
    simp [fieldName_eq_ok.2 hn, afterField, hread, Except.map]
  | alone hn =>
    simp only [Atom.tokens, List.cons_append, List.nil_append, bare_eq_cons] at h
    obtain ⟨_, after, rfl, rfl⟩ := h
    refine ⟨after, ⟨by simp only [List.length_cons]; omega, ?_⟩, rfl⟩
    rw [primary.eq_def]
    simp [fieldName_eq_ok.2 hn, afterField_alone ht, Except.map]

end ObjectGraph.Predicate
