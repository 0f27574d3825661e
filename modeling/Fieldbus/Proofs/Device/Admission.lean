import Fieldbus.Device.Access
import Fieldbus.Proofs.Device.Cells

/-!
# Admission

Whether an access is admitted is decided by the settings of the device alone, whatever its tables
hold.  `Device.Realizes` ties a device to the settings it was built from, and the lemmas on
`Device.access` say all that an access answers and all that it leaves in the memory.
-/

namespace Fieldbus

namespace DeviceSettings

/-- The device admits an access of `unitId` to `quantity` cells from `start` on: it is for its unit,
and it ends inside the tables. -/
def Admits (s : DeviceSettings) (unitId : UInt8) (start : UInt16) (quantity : Nat) : Prop :=
  unitId = s.unitId ∧ start.toNat + quantity ≤ s.size

instance (s : DeviceSettings) (unitId : UInt8) (start : UInt16) (quantity : Nat) :
    Decidable (s.Admits unitId start quantity) :=
  inferInstanceAs (Decidable (_ ∧ _))

/-- The cell that shows the live counter. -/
def IsCounterCell (s : DeviceSettings) (k : TableKind) (x : Nat) : Prop :=
  k = .holding ∧ x = s.counterAddress.toNat

instance (s : DeviceSettings) (k : TableKind) (x : Nat) : Decidable (s.IsCounterCell k x) :=
  inferInstanceAs (Decidable (_ ∧ _))

end DeviceSettings

namespace Memory

variable {k : TableKind}

/-- The memory after an admitted access: a read leaves it, and a write lays its values over it. -/
def accessed (m : Memory) (shielded : Nat → Bool) : Access k → Memory
  | .read .. => m
  | .write _ start values => m.lay shielded k start.toNat values

@[simp] theorem size_accessed (m : Memory) (shielded : Nat → Bool) (a : Access k) :
    (m.accessed shielded a).size = m.size := by
  cases a <;> simp [accessed]

@[simp] theorem counter_accessed (m : Memory) (shielded : Nat → Bool) (a : Access k) :
    (m.accessed shielded a).counter = m.counter := by
  cases a <;> simp [accessed]

end Memory

namespace Device

variable {k : TableKind} {d : Device} {s : DeviceSettings}

/-- What a device keeps of the valid settings that it was built from. -/
structure Realizes (d : Device) (s : DeviceSettings) : Prop where
  valid : s.Valid
  unitId_eq : d.unitId = s.unitId
  counterAddress_eq : d.counterAddress = s.counterAddress
  size_eq : d.memory.size = s.size

theorem Realizes.shields_iff (h : d.Realizes s) (k : TableKind) (x : Nat) :
    d.shields k x = true ↔ s.IsCounterCell k x := by
  simp [shields, DeviceSettings.IsCounterCell, h.counterAddress_eq]

theorem Realizes.shields_eq_false_iff (h : d.Realizes s) (k : TableKind) (x : Nat) :
    d.shields k x = false ↔ ¬ s.IsCounterCell k x := by
  rw [← h.shields_iff, Bool.not_eq_true]

/-! ## Refusals -/

theorem Realizes.refusal?_eq (h : d.Realizes s) (unitId : UInt8) (start : UInt16)
    (quantity : Nat) :
    d.refusal? unitId start quantity =
      if unitId ≠ s.unitId then some (.wrongUnit unitId s.unitId)
      else if s.size < start.toNat + quantity then some (.outOfRange start quantity s.size)
      else none := by
  rw [refusal?, Device.size, h.unitId_eq, h.size_eq]

theorem Realizes.refusal?_eq_none_iff (h : d.Realizes s) (unitId : UInt8) (start : UInt16)
    (quantity : Nat) :
    d.refusal? unitId start quantity = none ↔ s.Admits unitId start quantity := by
  rw [h.refusal?_eq, DeviceSettings.Admits]
  -- Either reason to refuse is the failure of one half of the admission.
  by_cases hunit : unitId = s.unitId
  · rw [if_neg (Decidable.not_not.mpr hunit)]
    by_cases hrange : s.size < start.toNat + quantity
    · simp [hrange]
    · simp [hrange, hunit]
      omega
  · simp [hunit]

/-! ## Accesses -/

theorem access_of_refusal {unitId : UInt8} {a : Access k} {refusal : Refusal}
    (hrefusal : d.refusal? unitId a.start a.quantity = some refusal) :
    d.access unitId a =
      { answer := .error refusal
        state := { d with statistics := refusal.count d.statistics }
        events := [refusal.event k] } := by
  rw [access, hrefusal]

/-- The memory after an access: unless it was admitted, nothing has changed. -/
theorem Realizes.memory_access (h : d.Realizes s) (unitId : UInt8) (a : Access k) :
    (d.access unitId a).state.memory =
      if s.Admits unitId a.start a.quantity then d.memory.accessed (d.shields k) a
      else d.memory := by
  cases hrefusal : d.refusal? unitId a.start a.quantity with
  | none =>
    rw [if_pos ((h.refusal?_eq_none_iff ..).mp hrefusal), access, hrefusal]
    cases a <;> rfl
  | some refusal =>
    have hnot : ¬ s.Admits unitId a.start a.quantity := by
      rw [← h.refusal?_eq_none_iff, hrefusal]
      exact Option.some_ne_none refusal
    rw [if_neg hnot, access_of_refusal hrefusal]

/-- An admitted access answers with the cells of its range as they are afterwards, and any other
with the reason to refuse it. -/
theorem Realizes.answer_access (h : d.Realizes s) (unitId : UInt8) (a : Access k) :
    (d.access unitId a).answer =
      if unitId ≠ s.unitId then .error (.wrongUnit unitId s.unitId)
      else if s.size < a.start.toNat + a.quantity then
        .error (.outOfRange a.start a.quantity s.size)
      else .ok ((d.access unitId a).state.memory.window k a.start.toNat a.quantity) := by
  have hrefusal := h.refusal?_eq unitId a.start a.quantity
  -- The unit is looked at before the range, as in the refusal.
  split
  · rename_i hunit
    rw [if_pos hunit] at hrefusal
    rw [access_of_refusal hrefusal]
  · rename_i hunit
    rw [if_neg hunit] at hrefusal
    split
    · rename_i hrange
      rw [if_pos hrange] at hrefusal
      rw [access_of_refusal hrefusal]
    · rename_i hrange
      rw [if_neg hrange] at hrefusal
      rw [access, hrefusal]
      cases a <;> rfl

theorem Realizes.answer_access_of_admits (h : d.Realizes s) {unitId : UInt8} {a : Access k}
    (hadmits : s.Admits unitId a.start a.quantity) :
    (d.access unitId a).answer =
      .ok ((d.access unitId a).state.memory.window k a.start.toNat a.quantity) := by
  rw [h.answer_access, if_neg (Decidable.not_not.mpr hadmits.1), if_neg (Nat.not_lt.mpr hadmits.2)]

theorem Realizes.answer_read (h : d.Realizes s) {unitId : UInt8} {start quantity : UInt16}
    (hadmits : s.Admits unitId start quantity.toNat) :
    (d.access unitId (k := k) (.read start quantity)).answer =
      .ok (d.memory.window k start.toNat quantity.toNat) := by
  have hmemory : (d.access unitId (k := k) (.read start quantity)).state.memory = d.memory := by
    rw [h.memory_access]
    exact ite_self _
  rw [h.answer_access_of_admits hadmits, hmemory]
  rfl

/-- An access that is answered with cells was admitted, and the cells are those of its range
afterwards. -/
theorem Realizes.admits_of_answer_access (h : d.Realizes s) {unitId : UInt8} {a : Access k}
    {cells : List k.Cell} (hanswer : (d.access unitId a).answer = .ok cells) :
    s.Admits unitId a.start a.quantity ∧
      cells = (d.access unitId a).state.memory.window k a.start.toNat a.quantity := by
  rw [h.answer_access] at hanswer
  split at hanswer
  · cases hanswer
  · rename_i hunit
    split at hanswer
    · cases hanswer
    · rename_i hrange
      cases hanswer
      exact ⟨⟨Decidable.not_not.mp hunit, Nat.not_lt.mp hrange⟩, rfl⟩

theorem Realizes.access (h : d.Realizes s) (unitId : UInt8) (a : Access k) :
    (d.access unitId a).state.Realizes s := by
  have hsize : (d.access unitId a).state.memory.size = d.memory.size := by
    rw [h.memory_access]
    split <;> simp
  refine ⟨h.valid, ?_, ?_, hsize.trans h.size_eq⟩
  -- An access replaces the memory and the statistics, never the unit or the place of the counter.
  · rw [← h.unitId_eq, Device.access]
    cases d.refusal? unitId a.start a.quantity with
    | none => cases a <;> rfl
    | some refusal => rfl
  · rw [← h.counterAddress_eq, Device.access]
    cases d.refusal? unitId a.start a.quantity with
    | none => cases a <;> rfl
    | some refusal => rfl

/-- An access shields the counter cell, and leaves every cell but the ones it writes. -/
theorem Realizes.cell?_access_of_counterCell (h : d.Realizes s) (unitId : UInt8) (a : Access k)
    {k' : TableKind} {x : Nat} (hx : s.IsCounterCell k' x) :
    (d.access unitId a).state.memory.cell? k' x = d.memory.cell? k' x := by
  rw [h.memory_access]
  split
  · cases a with
    | read start quantity => rfl
    | write writable start values =>
      -- A write into another table cannot reach the cell, and one into this table skips it.
      by_cases hk : k' = k
      · subst hk
        have hshield : d.shields k' x = true := (h.shields_iff k' x).mpr hx
        rw [Memory.accessed, Memory.cell?_lay_self, if_neg (by simp [hshield])]
      · rw [Memory.accessed, Memory.cell?_lay_of_ne _ _ _ _ _ hk]
  · rfl

end Device

end Fieldbus
