/-
# Values, cells and truth

What the meaning of queries and of selects has in common.  Values stay abstract: a domain says
how constants are made, how values are compared, sorted and cast, and how arrays and records of
cells become values again.  A cell without a value is null, and a condition on cells is true,
false or unknown.
-/
import ObjectGraph.Sql.Syntax
import Mathlib.Tactic.Lemma

namespace ObjectGraph

variable {δ : Type}

/-- A value, or null. -/
abbrev Cell (δ : Type) := Option δ

/-- A row: its cells by name. -/
abbrev Record (δ : Type) := List (String × Cell δ)

/-- The cell of a name, null if there is none. -/
def Record.cell (record : Record δ) (name : String) : Cell δ :=
  (record.lookup name).join

/-- The rows of the stored tables. -/
abbrev Database (δ : Type) := Sql.TableName → List (Record δ)

/-! ### Three truth values -/

/-- True, false or unknown. -/
abbrev Truth := Option Bool

namespace Truth

/-- False if one side is, otherwise unknown if one side is. -/
def and : Truth → Truth → Truth
  | some false, _ | _, some false => some false
  | some true, some true => some true
  | _, _ => none

/-- True if one side is, otherwise unknown if one side is. -/
def or : Truth → Truth → Truth
  | some true, _ | _, some true => some true
  | some false, some false => some false
  | _, _ => none

/-- What is unknown stays unknown when it is negated. -/
def not (t : Truth) : Truth := t.map Bool.not

@[simp] lemma true_and (t : Truth) : and (some true) t = t := by
  rcases t with _ | _ | _ <;> rfl

@[simp] lemma and_true (t : Truth) : and t (some true) = t := by
  rcases t with _ | _ | _ <;> rfl

@[simp] lemma or_false (t : Truth) : or t (some false) = t := by
  rcases t with _ | _ | _ <;> rfl

lemma and_assoc (s t u : Truth) : and (and s t) u = and s (and t u) := by
  rcases s with _ | _ | _ <;> rcases t with _ | _ | _ <;> rcases u with _ | _ | _ <;> rfl

lemma or_assoc (s t u : Truth) : or (or s t) u = or s (or t u) := by
  rcases s with _ | _ | _ <;> rcases t with _ | _ | _ <;> rcases u with _ | _ | _ <;> rfl

/-- A conjunction holds if both sides do; unknown is not enough on either. -/
lemma and_holds (s t : Truth) :
    (and s t == some true) = (s == some true && t == some true) := by
  rcases s with _ | _ | _ <;> rcases t with _ | _ | _ <;> rfl

end Truth

/-! ### Domains -/

/-- What is known about the values in a database. -/
structure Domain (δ : Type) where
  boolean : Bool → δ
  integer : Int → δ
  float : Double → δ
  text : String → δ
  array : List (Cell δ) → δ
  record : Record δ → δ
  /-- The value as one of a type, if it can be. -/
  cast : ScalarType → δ → Cell δ
  /-- What a value says as a condition. -/
  truth : δ → Truth
  truth_boolean : ∀ b, truth (boolean b) = some b
  /-- Whether an operator holds between two values. -/
  compare : ComparisonOperator → δ → δ → Truth
  /-- The ascending order of cells, null included. -/
  order : Cell δ → Cell δ → Ordering
  transOrder : Std.TransCmp order

namespace Domain

variable (D : Domain δ)

instance : Std.TransCmp D.order := D.transOrder

/-- The truth that a cell stands for; null stands for unknown. -/
def toTruth (cell : Cell δ) : Truth := cell.bind D.truth

/-- The cell that a truth is stored as. -/
def ofTruth (t : Truth) : Cell δ := t.map D.boolean

@[simp] lemma toTruth_ofTruth (t : Truth) : D.toTruth (D.ofTruth t) = t := by
  cases t with
  | none => rfl
  | some b => exact D.truth_boolean b

/-- Whether an operator holds between two cells, which is unknown if one is null. -/
def holds (operator : ComparisonOperator) : Cell δ → Cell δ → Truth
  | some a, some b => D.compare operator a b
  | _, _ => none

/-- Whether a cell equals one of several. -/
def among (cell : Cell δ) : List (Cell δ) → Truth
  | [] => some false
  | item :: rest => Truth.or (D.holds .equals cell item) (among cell rest)

/-- The order of cells in a direction. -/
def directed (direction : Direction) (a b : Cell δ) : Ordering :=
  match direction with
  | .ascending => D.order a b
  | .descending => D.order b a

instance (direction : Direction) : Std.TransCmp (D.directed direction) := by
  cases direction with
  | ascending => exact D.transOrder
  | descending => exact inferInstanceAs (Std.TransCmp fun a b => D.order b a)

end Domain

/-! ### A domain to try things out -/

/-- Values to try things out with. -/
inductive Datum
  | boolean (b : Bool)
  | integer (i : Int)
  | float (x : Double)
  | text (s : String)
  | array (cells : List (Option Datum))
  | record (cells : List (String × Option Datum))

namespace Datum

/-- The place of a kind of cell in the order, null being last. -/
def rank : Cell Datum → Nat
  | some (boolean _) => 0
  | some (integer _) => 1
  | some (float _) => 2
  | some (text _) => 3
  | some (array _) => 4
  | some (record _) => 5
  | none => 6

/-- What booleans and integers are ordered by among themselves. -/
def number : Cell Datum → Int
  | some (boolean b) => b.toInt
  | some (integer i) => i
  | _ => 0

/-- What texts are ordered by among themselves. -/
def string : Cell Datum → String
  | some (text s) => s
  | _ => ""

/-- Booleans, integers and texts are ordered among themselves, other values by their kind, and
null is the greatest. -/
def order : Cell Datum → Cell Datum → Ordering :=
  compareLex (compareOn rank) (compareLex (compareOn number) (compareOn string))

instance : Std.TransCmp order := by
  unfold order
  infer_instance

/-- The domain of these values; two values of different kinds are not compared. -/
def domain : Domain Datum where
  boolean := boolean
  integer := integer
  float := float
  text := text
  array := array
  record := record
  cast _ d := some d
  truth
    | boolean b => some b
    | _ => none
  truth_boolean _ := rfl
  compare operator a b :=
    if rank (some a) = rank (some b) then some (operator.holds (order (some a) (some b))) else none
  order := order
  transOrder := inferInstance

end Datum
end ObjectGraph
