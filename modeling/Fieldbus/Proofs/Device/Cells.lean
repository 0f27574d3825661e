import Fieldbus.Device.Memory

/-!
# Cells of a memory

A memory is looked at cell by cell: `Memory.cell?` is one cell of one table.  This module says what
laying values, setting the counter and cutting out a window do to single cells, so that nothing
later has to open an array.
-/

namespace Fieldbus

theorem toNat_toUInt16_of_le {n : Nat} (hn : n ≤ 65535) : n.toUInt16.toNat = n := by
  have hword : n < UInt16.size := Nat.lt_succ_of_le hn
  exact UInt16.toNat_ofNat_of_lt' hword

/-- After an overlay, a cell has the value laid over it; a shielded cell and a cell outside the
range are as before. -/
theorem getElem?_overlay (shielded : Nat → Bool) {α : Type} (cells : Array α) (start : Nat)
    (values : List α) (x : Nat) :
    (overlay shielded cells start values)[x]? =
      if start ≤ x ∧ x < start + values.length ∧ x < cells.size ∧ shielded x = false then
        values[x - start]?
      else cells[x]? := by
  -- By recursion on the values: the head goes to `start`, and the tail begins one cell later.
  induction values generalizing cells start with
  | nil =>
    have hempty : ¬ (start ≤ x ∧ x < start + 0) := by omega
    simp only [overlay, List.length_nil]
    rw [if_neg fun h => hempty ⟨h.1, h.2.1⟩]
  | cons v vs ih =>
    have hsize : (if shielded start then cells else cells.setIfInBounds start v).size =
        cells.size := by
      split <;> simp
    rw [overlay, ih, hsize, List.length_cons]
    by_cases hx : x = start
    · -- The head goes to this very cell, and the tail lies after it.
      subst hx
      rw [if_neg (by omega)]
      cases hs : shielded x with
      | true => simp
      | false =>
        simp only [Bool.false_eq_true, if_false, Array.getElem?_setIfInBounds_self]
        by_cases hin : x < cells.size <;> simp [hin]
    · have hcell : (if shielded start then cells else cells.setIfInBounds start v)[x]? =
          cells[x]? := by
        split
        · rfl
        · exact Array.getElem?_setIfInBounds_ne (Ne.symm hx)
      rw [hcell]
      by_cases hin : start ≤ x ∧ x < start + (vs.length + 1) ∧ x < cells.size ∧ shielded x = false
      · have hoffset : x - start = (x - (start + 1)) + 1 := by omega
        rw [if_pos hin, if_pos ⟨by omega, by omega, hin.2.2⟩, hoffset, List.getElem?_cons_succ]
      · have hlater : ¬ (start + 1 ≤ x ∧ x < start + 1 + vs.length ∧ x < cells.size ∧
            shielded x = false) := by
          rintro ⟨hlow, hhigh, hrest⟩
          exact hin ⟨by omega, by omega, hrest⟩
        rw [if_neg hin, if_neg hlater]

namespace Memory

variable {k : TableKind}

/-- The cell `x` of the table `k`, if the table reaches that far. -/
def cell? (m : Memory) (k : TableKind) (x : Nat) : Option k.Cell := (m.table k)[x]?

/-- Memories of one size with the same cells and the same counter are the same. -/
theorem eq_of_cell?_eq {m m' : Memory} (hsize : m.size = m'.size)
    (hcounter : m.counter = m'.counter) (hcells : ∀ k x, m.cell? k x = m'.cell? k x) : m = m' := by
  have htable : ∀ k, m.table k = m'.table k := fun k => Array.ext_getElem? (hcells k)
  have hholding : m.holding = m'.holding := htable .holding
  have hinput : m.input = m'.input := htable .input
  have hcoils : m.coils = m'.coils := htable .coil
  have hdiscrete : m.discrete = m'.discrete := htable .discrete
  cases m
  cases m'
  cases hsize
  cases hcounter
  cases hholding
  cases hinput
  cases hcoils
  cases hdiscrete
  rfl

/-! ## Laying values -/

theorem table_lay_self (m : Memory) (shielded : Nat → Bool) (start : Nat) (values : List k.Cell) :
    (m.lay shielded k start values).table k = overlay shielded (m.table k) start values := by
  cases k <;> rfl

theorem table_lay_of_ne {k' : TableKind} (m : Memory) (shielded : Nat → Bool) (start : Nat)
    (values : List k.Cell) (hk : k' ≠ k) :
    (m.lay shielded k start values).table k' = m.table k' := by
  cases k <;> cases k' <;> first | rfl | exact absurd rfl hk

@[simp] theorem counter_lay (m : Memory) (shielded : Nat → Bool) (start : Nat)
    (values : List k.Cell) : (m.lay shielded k start values).counter = m.counter := by
  cases k <;> rfl

theorem cell?_lay_self (m : Memory) (shielded : Nat → Bool) (start : Nat) (values : List k.Cell)
    (x : Nat) :
    (m.lay shielded k start values).cell? k x =
      if start ≤ x ∧ x < start + values.length ∧ x < m.size ∧ shielded x = false then
        values[x - start]?
      else m.cell? k x := by
  rw [cell?, table_lay_self, getElem?_overlay, size_table]
  rfl

theorem cell?_lay_of_ne {k' : TableKind} (m : Memory) (shielded : Nat → Bool) (start : Nat)
    (values : List k.Cell) (x : Nat) (hk : k' ≠ k) :
    (m.lay shielded k start values).cell? k' x = m.cell? k' x := by
  rw [cell?, table_lay_of_ne m shielded start values hk]
  rfl

/-! ## Setting the counter -/

theorem table_setCounter_of_ne (m : Memory) (address : Nat) (value : UInt16) (hk : k ≠ .holding) :
    (m.setCounter address value).table k = m.table k := by
  cases k <;> first | rfl | exact absurd rfl hk

theorem cell?_setCounter_self (m : Memory) (address : Nat) (value : UInt16)
    (haddress : address < m.size) :
    (m.setCounter address value).cell? .holding address = some value := by
  have hin : address < m.holding.size := by rw [m.size_holding]; exact haddress
  exact Array.getElem?_setIfInBounds_self_of_lt hin

theorem cell?_setCounter_of_ne (m : Memory) (address : Nat) (value : UInt16) (x : Nat)
    (hx : ¬ (k = .holding ∧ x = address)) :
    (m.setCounter address value).cell? k x = m.cell? k x := by
  by_cases hk : k = .holding
  · subst hk
    have hne : address ≠ x := fun h => hx ⟨rfl, h.symm⟩
    exact Array.getElem?_setIfInBounds_ne hne
  · rw [cell?, table_setCounter_of_ne m address value hk]
    rfl

/-! ## Windows -/

theorem length_window (m : Memory) (start quantity : Nat) (hin : start + quantity ≤ m.size) :
    (m.window k start quantity).length = quantity := by
  have hend : min (start + quantity) (m.table k).size = start + quantity := by
    rw [size_table]
    omega
  simp only [window, Array.length_toList, Array.size_extract, hend]
  omega

/-- A window that reaches beyond the table ends with it. -/
theorem length_window_le (m : Memory) (start quantity : Nat) :
    (m.window k start quantity).length ≤ quantity := by
  simp only [window, Array.length_toList, Array.size_extract]
  omega

/-- A window shows the cells of its range in ascending order. -/
theorem getElem?_window (m : Memory) (start quantity i : Nat) (hi : i < quantity) :
    (m.window k start quantity)[i]? = m.cell? k (start + i) := by
  rw [window, Array.getElem?_toList, Array.getElem?_extract, cell?]
  by_cases hin : start + i < (m.table k).size
  · rw [if_pos (by omega)]
  · rw [if_neg (by omega), Array.getElem?_eq_none (by omega)]

/-- A part of a window is the window of that part. -/
theorem window_eq_drop_take (m : Memory) (start quantity inner count : Nat)
    (hstart : start ≤ inner) (hcount : inner + count ≤ start + quantity) :
    m.window k inner count = ((m.window k start quantity).drop (inner - start)).take count := by
  apply List.ext_getElem?
  intro i
  -- Both lists show the same cell at `i`, or both have ended before.
  by_cases hi : i < count
  · have hoffset : start + (inner - start + i) = inner + i := by omega
    rw [List.getElem?_take_of_lt hi, List.getElem?_drop,
      getElem?_window m start quantity _ (by omega), getElem?_window m inner count i hi, hoffset]
  · have hlength := m.length_window_le (k := k) inner count
    rw [List.getElem?_eq_none (by omega), List.getElem?_eq_none (by simp; omega)]

/-- A window shows nothing but the cells of its range. -/
theorem window_congr {m m' : Memory} {start quantity : Nat}
    (hcells : ∀ i < quantity, m.cell? k (start + i) = m'.cell? k (start + i)) :
    m.window k start quantity = m'.window k start quantity := by
  apply List.ext_getElem?
  intro i
  by_cases hi : i < quantity
  · rw [getElem?_window m _ _ _ hi, getElem?_window m' _ _ _ hi, hcells i hi]
  · have hlength := m.length_window_le (k := k) start quantity
    have hlength' := m'.length_window_le (k := k) start quantity
    rw [List.getElem?_eq_none (by omega), List.getElem?_eq_none (by omega)]

end Memory

end Fieldbus
