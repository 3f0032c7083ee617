/-
# Values as cells

The rows of a table and the objects in memory say the same thing in two ways: a row has cells of a
domain, an object has JSON values.  This file fixes which cell holds which value and what a
database is expected to know of the values it holds: how constants compare and how they are
sorted.  Nothing is assumed of null here, since no domain says how null compares.
-/
import ObjectGraph.Catalog.Validation
import ObjectGraph.Memory.Order
import ObjectGraph.Proofs.Domain

namespace ObjectGraph

variable {δ : Type}

/-! ### Cells of JSON values -/

namespace Json

mutual

/-- The cell that holds a value; null is the cell without one. -/
def cell (D : Domain δ) : Json → Cell δ
  | null => none
  | boolean b => some (D.boolean b)
  | number (.int i) => some (D.integer i)
  | number (.float x) => some (D.float x)
  | string s => some (D.text s)
  | array items => some (D.array (itemCells D items))
  | object members => some (D.record (memberCells D members))

/-- The cells of the items of a list. -/
def itemCells (D : Domain δ) : List Json → List (Cell δ)
  | [] => []
  | item :: rest => item.cell D :: itemCells D rest

/-- The cells of the members of an object, under their names. -/
def memberCells (D : Domain δ) : List (String × Json) → List (String × Cell δ)
  | [] => []
  | (name, value) :: rest => (name, value.cell D) :: memberCells D rest

end

end Json

/-- The cell in which a column of a type holds a value: a string that stands for a date, a time or
an identifier is held as what it stands for. -/
def ScalarType.cell (D : Domain δ) (type : ScalarType) : Json → Cell δ
  | .string s => if type.isStringEncoded then D.cast type (D.text s) else some (D.text s)
  | value => value.cell D

/-! ### Integers of 64 bits -/

namespace Json

variable {i j : Int}

lemma int64?_eq_some {k : Int64} (h : int64? i = some k) : k.toInt = i := by
  unfold int64? at h
  split at h
  · rename_i hle
    obtain rfl := Option.some.inj h
    have hmin : Int64.minValue.toInt = -0x8000000000000000 := rfl
    have hmax : Int64.maxValue.toInt = 0x7fffffffffffffff := rfl
    exact Int64.toInt_ofInt_of_le (by omega) (by omega)
  · cases h

lemma int64?_toInt (k : Int64) : int64? k.toInt = some k := by
  unfold int64?
  rw [if_pos ⟨Int64.minValue_le_toInt k, Int64.toInt_le k⟩, Int64.ofInt_toInt]

lemma isSome_int64? (hmin : -0x8000000000000000 ≤ i) (hmax : i < 0x8000000000000000) :
    (int64? i).isSome = true := by
  have hmin' : Int64.minValue.toInt = -0x8000000000000000 := rfl
  have hmax' : Int64.maxValue.toInt = 0x7fffffffffffffff := rfl
  unfold int64?
  rw [if_pos ⟨by omega, by omega⟩]
  rfl

/-- Integers of 64 bits are compared as integers. -/
lemma Number.order_int (hi : (Json.int64? i).isSome = true) (hj : (Json.int64? j).isSome = true) :
    Number.order (.int i) (.int j) = compare i j := by
  obtain ⟨k, hk⟩ := Option.isSome_iff_exists.1 hi
  obtain ⟨l, hl⟩ := Option.isSome_iff_exists.1 hj
  simp only [Number.order, Number.int64?, hk, hl, int64?_eq_some hk, int64?_eq_some hl]

end Json

/-! ### Domains that compare as usual -/

/-- What a database knows of the values that are not null: constants compare as booleans, integers,
doubles and texts do, an integer being compared with a double as a double.  Strings that are
written canonically for their type compare like what they stand for. -/
structure Domain.Standard (D : Domain δ) (canonical : ScalarType → String → Prop) : Prop where
  boolean (operator : ComparisonOperator) (a b : Bool) :
    D.compare operator (D.boolean a) (D.boolean b) = some (operator.holds (Ord.compare a b))
  integer (operator : ComparisonOperator) (i j : Int) :
    D.compare operator (D.integer i) (D.integer j) = some (operator.holds (Ord.compare i j))
  float (operator : ComparisonOperator) (x y : Double) :
    D.compare operator (D.float x) (D.float y) = some (operator.holds (x.compare y))
  float_integer (operator : ComparisonOperator) (x : Double) (i : Int) :
    D.compare operator (D.float x) (D.integer i) = some (operator.holds (x.compare (.ofInt i)))
  integer_float (operator : ComparisonOperator) (i : Int) (x : Double) :
    D.compare operator (D.integer i) (D.float x)
      = some (operator.holds ((Double.ofInt i).compare x))
  text (operator : ComparisonOperator) (s t : String) :
    D.compare operator (D.text s) (D.text t) = some (operator.holds (Ord.compare s t))
  encoded (operator : ComparisonOperator) {type : ScalarType} (h : type.isStringEncoded = true)
    {s t : String} (hs : canonical type s) (ht : canonical type t) :
    D.holds operator (D.cast type (D.text s)) (D.cast type (D.text t))
      = some (operator.holds (Ord.compare s t))

/-- Booleans, integers and texts are sorted as they compare. -/
structure Domain.Sorts (D : Domain δ) : Prop where
  boolean (a b : Bool) : D.order (some (D.boolean a)) (some (D.boolean b)) = Ord.compare a b
  integer (i j : Int) : D.order (some (D.integer i)) (some (D.integer j)) = Ord.compare i j
  text (s t : String) : D.order (some (D.text s)) (some (D.text t)) = Ord.compare s t

namespace Datum

/-- How the values to try things out with compare, those of different kinds not at all. -/
def relation (operator : ComparisonOperator) : Datum → Datum → Truth
  | boolean a, boolean b => some (operator.holds (compare a b))
  | integer i, integer j => some (operator.holds (compare i j))
  | float x, float y => some (operator.holds (x.compare y))
  | float x, integer i => some (operator.holds (x.compare (.ofInt i)))
  | integer i, float x => some (operator.holds ((Double.ofInt i).compare x))
  | text s, text t => some (operator.holds (compare s t))
  | _, _ => none

/-- The domain to try things out with, in which values compare as usual. -/
def standard : Domain Datum := { domain with compare := relation }

lemma standard_standard : standard.Standard fun _ _ => True where
  boolean _ _ _ := rfl
  integer _ _ _ := rfl
  float _ _ _ := rfl
  float_integer _ _ _ := rfl
  integer_float _ _ _ := rfl
  text _ _ _ := rfl
  encoded _ _ _ _ _ _ _ := rfl

lemma compare_toInt (a b : Bool) : compare a.toInt b.toInt = compare a b := by
  cases a <;> cases b <;> rfl

lemma standard_sorts : standard.Sorts where
  boolean a b := by
    simp [standard, domain, order, compareLex, compareOn, rank, number, string, compare_toInt]
  integer i j := by
    simp [standard, domain, order, compareLex, compareOn, rank, number, string]
  text s t := by
    simp [standard, domain, order, compareLex, compareOn, rank, number, string]

end Datum
end ObjectGraph
