import Fieldbus.Table

/-!
# The memory of a device

Four tables of one length, fixed when the memory is made, and the value of the live counter.  A
table is read as a window of neighbouring cells and written by laying a list of cells over it,
which may leave shielded cells as they are.
-/

namespace Fieldbus

/-- Lays `values` over `cells` from `start` on, one cell each, and leaves the cells that
`shielded` names as they are.  Values beyond the last cell are dropped. -/
def overlay (shielded : Nat → Bool) {α : Type} (cells : Array α) (start : Nat) :
    List α → Array α
  | [] => cells
  | v :: vs =>
    overlay shielded (if shielded start then cells else cells.setIfInBounds start v) (start + 1) vs

@[simp] theorem size_overlay (shielded : Nat → Bool) {α : Type} (cells : Array α) (start : Nat)
    (values : List α) : (overlay shielded cells start values).size = cells.size := by
  induction values generalizing cells start with
  | nil => rfl
  | cons v vs ih =>
    unfold overlay
    rw [ih]
    split <;> simp

/-- The four tables and the live counter. -/
structure Memory where
  size : Nat
  holding : Array UInt16
  input : Array UInt16
  coils : Array Bool
  discrete : Array Bool
  counter : UInt16 := 0
  size_holding : holding.size = size := by simp
  size_input : input.size = size := by simp
  size_coils : coils.size = size := by simp
  size_discrete : discrete.size = size := by simp
  deriving DecidableEq

namespace Memory

/-- Tables of `size` blank cells. -/
def blank (size : Nat) : Memory where
  size := size
  holding := Array.replicate size 0
  input := Array.replicate size 0
  coils := Array.replicate size false
  discrete := Array.replicate size false

/-- The cells of one table. -/
def table (m : Memory) : (k : TableKind) → Array k.Cell
  | .holding => m.holding
  | .input => m.input
  | .coil => m.coils
  | .discrete => m.discrete

@[simp] theorem size_table (m : Memory) (k : TableKind) : (m.table k).size = m.size := by
  cases k
  · exact m.size_holding
  · exact m.size_input
  · exact m.size_coils
  · exact m.size_discrete

/-- The `quantity` cells of a table from `start` on. -/
def window (m : Memory) (k : TableKind) (start quantity : Nat) : List k.Cell :=
  ((m.table k).extract start (start + quantity)).toList

/-- Lays cells over a table, the shielded ones excepted. -/
def lay (m : Memory) (shielded : Nat → Bool) :
    (k : TableKind) → (start : Nat) → List k.Cell → Memory
  | .holding, start, values =>
    { m with
      holding := overlay shielded m.holding start values
      size_holding := by simp [m.size_holding] }
  | .input, start, values =>
    { m with
      input := overlay shielded m.input start values
      size_input := by simp [m.size_input] }
  | .coil, start, values =>
    { m with
      coils := overlay shielded m.coils start values
      size_coils := by simp [m.size_coils] }
  | .discrete, start, values =>
    { m with
      discrete := overlay shielded m.discrete start values
      size_discrete := by simp [m.size_discrete] }

/-- Sets the live counter and shows it in the holding register `address`. -/
def setCounter (m : Memory) (address : Nat) (value : UInt16) : Memory :=
  { m with
    holding := m.holding.setIfInBounds address value
    counter := value
    size_holding := by simp [m.size_holding] }

@[simp] theorem size_lay (m : Memory) (shielded : Nat → Bool) (k : TableKind) (start : Nat)
    (values : List k.Cell) : (m.lay shielded k start values).size = m.size := by
  cases k <;> rfl

@[simp] theorem size_setCounter (m : Memory) (address : Nat) (value : UInt16) :
    (m.setCounter address value).size = m.size :=
  rfl

end Memory

end Fieldbus
