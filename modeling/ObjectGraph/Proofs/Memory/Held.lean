/-
# Cells that hold values

A cell of a column holds a value of an object when the value fits the type of the column and a
database may keep it there.  Such a cell answers what a literal asks of it as the value does: it
is null when there is no value, it compares as the value compares, and it is among others when
the value is.
-/
import ObjectGraph.Compile.Condition
import ObjectGraph.Proofs.Cells
import ObjectGraph.Proofs.Listing
import ObjectGraph.Proofs.Memory.Readings

namespace ObjectGraph

variable {δ : Type} {D : Domain δ} {canonical : ScalarType → String → Prop}

namespace ScalarType

variable {type : ScalarType} {v : Json}

/-- Fields for numbers hold numbers. -/
lemma number_of_fits (ht : type.isInteger = true ∨ type.isFloat = true)
    (hf : type.fits v = true) : ∃ n, v = .number n := by
  cases v with
  | number n => exact ⟨n, rfl⟩
  | null | boolean | string | array | object =>
    cases type <;> simp [isInteger, isFloat] at ht <;> cases hf

/-- Fields for strings hold strings. -/
lemma string_of_fits (ht : type.isText = true ∨ type.isStringEncoded = true)
    (hf : type.fits v = true) : ∃ s, v = .string s := by
  cases v with
  | string s => exact ⟨s, rfl⟩
  | number n => cases n <;> cases type <;> simp [isText, isStringEncoded] at ht <;> cases hf
  | null | boolean | array | object =>
    cases type <;> simp [isText, isStringEncoded] at ht <;> cases hf

/-- A value that a field of a type may hold and a literal that it may be compared with. -/
inductive SameKind (type : ScalarType) : Json → Literal → Prop
  | boolean (ht : type = .boolean) (a b : Bool) : SameKind type (.boolean a) (.boolean b)
  | integer (n : Json.Number) (i : Int64) : SameKind type (.number n) (.integer i)
  | float (ht : type.isFloat = true) (n : Json.Number) (x : Double) :
    SameKind type (.number n) (.float x)
  | string (ht : type.isText = true ∨ type.isStringEncoded = true) (s t : String) :
    SameKind type (.string s) (.string t)

/-- What fits a type is of one kind with the literals that suit it. -/
lemma sameKind_of_suitable {literal : Literal} (hf : type.fits v = true) (hn : literal ≠ .null)
    (hs : (Compile.suitable? type literal).isSome = true) : type.SameKind v literal := by
  cases literal with
  | null => exact absurd rfl hn
  | boolean b =>
    obtain rfl : type = .boolean := by
      by_contra h
      simp [Compile.suitable?, h] at hs
    cases v with
    | boolean a => exact .boolean rfl a b
    | number n => cases n <;> cases hf
    | null | string | array | object => cases hf
  | integer i =>
    have ht : type.isInteger = true ∨ type.isFloat = true := by
      by_contra h
      simp_all [Compile.suitable?]
    obtain ⟨n, rfl⟩ := number_of_fits ht hf
    exact .integer n i
  | float x =>
    have ht : type.isFloat = true := by
      by_contra h
      simp [Compile.suitable?, h] at hs
    obtain ⟨n, rfl⟩ := number_of_fits (.inr ht) hf
    exact .float ht n x
  | string t =>
    have ht : type.isText = true ∨ type.isStringEncoded = true := by
      by_contra h
      simp_all [Compile.suitable?]
    obtain ⟨s, rfl⟩ := string_of_fits ht hf
    exact .string ht s t

/-- Values and literals of one kind have an order. -/
lemma SameKind.exists_order {literal : Literal} (h : type.SameKind v literal) :
    ∃ order, compareLiteral v literal = some order := by
  cases h <;> exact ⟨_, rfl⟩

lemma isText_eq_false (h : type.isStringEncoded = true) : type.isText = false := by
  cases type <;> first | rfl | cases h

lemma isStringEncoded_eq_false (h : type.isText = true) : type.isStringEncoded = false := by
  cases type <;> first | rfl | cases h

end ScalarType

/-- What a database may hold in a column of a type: integers have 64 bits, and a string that
stands for something else is written canonically. -/
structure Json.Storable (canonical : ScalarType → String → Prop) (type : ScalarType) (v : Json) :
    Prop where
  integer : ∀ i, v = .int i → (int64? i).isSome = true
  string : type.isStringEncoded = true → ∀ s, v = .string s → canonical type s

/-- A cell that holds a value of a type, if there is one. -/
inductive Held (D : Domain δ) (canonical : ScalarType → String → Prop) (type : ScalarType) :
    Option Json → Cell δ → Prop
  | nothing {value : Option Json} (h : isNothing value = true) : Held D canonical type value none
  | value {v : Json} (hn : v ≠ .null) (hf : type.fits v = true) (hs : v.Storable canonical type) :
    Held D canonical type (some v) (type.cell D v)

namespace Held

variable {type : ScalarType} {value : Option Json} {cell : Cell δ}

lemma isNothing_some {v : Json} (hn : v ≠ .null) : isNothing (some v) = false := by
  cases v <;> first | rfl | exact absurd rfl hn

/-- A string written canonically can be cast. -/
lemma isSome_cast (hD : D.Standard canonical) (ht : type.isStringEncoded = true) {s : String}
    (hs : canonical type s) : (D.cast type (D.text s)).isSome = true := by
  have h := hD.encoded .equals ht hs hs
  cases hc : D.cast type (D.text s) with
  | none =>
    rw [hc] at h
    cases h
  | some d => rfl

/-- A cell is null when there is no value. -/
lemma isNone_eq (hD : D.Standard canonical) (h : Held D canonical type value cell) :
    cell.isNone = isNothing value := by
  cases h with
  | nothing h => rw [h]; rfl
  | @value v hn _ hs =>
    rw [isNothing_some hn]
    cases v with
    | null => exact absurd rfl hn
    | boolean | array | object => simp [ScalarType.cell, Json.cell]
    | number n => cases n <;> simp [ScalarType.cell, Json.cell]
    | string s =>
      simp only [ScalarType.cell]
      split
      · rename_i ht
        rw [← Option.not_isSome, isSome_cast hD ht (hs.string ht s rfl)]
        rfl
      · rfl

/-- A value compares with a literal that suits its type as their cells do. -/
lemma holds_literal (hD : D.Standard canonical) (h : Held D canonical type value cell)
    (operator : ComparisonOperator) {literal : Literal} (hn : literal ≠ .null)
    (hsuits : (Compile.suitable? type literal).isSome = true)
    (hl : type.isStringEncoded = true → ∀ s, literal = .string s → canonical type s) :
    D.holds operator cell (literal.cell D (some type)) = literal.reading value operator := by
  cases h with
  | nothing hv => simp [Domain.holds, Literal.reading, hv, hn]
  | @value v hv hf hs =>
    rw [Literal.reading_of_value operator (isNothing_some hv)]
    cases ScalarType.sameKind_of_suitable hf hn hsuits with
    | boolean ht a b =>
      subst ht
      exact hD.boolean operator a b
    | integer n j =>
      rcases n with i | x
      · have horder : Json.Number.order (.int i) (.int j.toInt) = compare i j.toInt :=
          Json.Number.order_int (hs.integer i rfl) (by rw [Json.int64?_toInt]; rfl)
        simp only [compareWithLiteral, Option.bind_some, compareLiteral, horder]
        exact hD.integer operator i j.toInt
      · exact hD.float_integer operator x j.toInt
    | float ht n y =>
      rcases n with i | x
      · exact hD.integer_float operator i y
      · exact hD.float operator x y
    | string ht s t =>
      rcases ht with htext | hencoded
      · simp only [ScalarType.cell, ScalarType.isStringEncoded_eq_false htext, Literal.cell, htext,
          if_true, Bool.false_eq_true, if_false]
        exact hD.text operator s t
      · simp only [ScalarType.cell, hencoded, Literal.cell, ScalarType.isText_eq_false hencoded,
          if_true, Bool.false_eq_true, if_false]
        exact hD.encoded operator hencoded (hs.string hencoded s rfl) (hl hencoded t rfl)

/-- A value is among suitable literals as its cell is among theirs. -/
lemma among_literals (hD : D.Standard canonical) (h : Held D canonical type value cell)
    {values : List Literal}
    (hsuits : ∀ literal ∈ values, (Compile.suitable? type literal).isSome = true)
    (hl : type.isStringEncoded = true → ∀ s, .string s ∈ values → canonical type s) :
    D.among cell (values.map (Literal.cell D (some type)))
      = Predicate.anyMatching value values := by
  induction values with
  | nil => rfl
  | cons literal rest ih =>
    have hfirst : D.holds .equals cell (literal.cell D (some type)) = literal.matching value := by
      by_cases hn : literal = .null
      · subst hn
        cases cell <;> rfl
      · rw [h.holds_literal hD .equals hn (hsuits literal (by simp))
          fun ht s he => hl ht s (by simp [he])]
        simp [Literal.reading, Literal.matching, hn]
    rw [List.map_cons, Domain.among, Predicate.anyMatching, hfirst,
      ih (fun l hm => hsuits l (by simp [hm])) fun ht s hm => hl ht s (by simp [hm])]

end Held

end ObjectGraph
