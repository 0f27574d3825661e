import Fieldbus.Proofs.Device.Attempts

/-!
# No index leaves its table

The operations on a device cut slices and index cells without looking at the bounds: the validity of
the settings, the check of a seed and the admission of an access vouch for them from elsewhere.
This module carries the operations out once more with every slice and index checked on the spot.
The functions with a question mark give up as soon as one lies outside its table, or a slice is not
as long as what is copied over it.  They never do, and what they do is what the operations do.
-/

namespace Fieldbus

/-! ## Checked operations -/

namespace Memory

/-- The cells of a slice, which has to lie inside the table. -/
def slice? (m : Memory) (k : TableKind) (start stop : Nat) : Option (List k.Cell) :=
  if start ≤ stop ∧ stop ≤ (m.table k).size then some ((m.table k).extract start stop).toList
  else none

/-- Stores a value in a cell, which has to lie inside the table. -/
def store? (m : Memory) (k : TableKind) (x : Nat) (value : k.Cell) : Option Memory :=
  if x < (m.table k).size then some (m.lay (fun _ => false) k x [value]) else none

/-- Copies values over a slice, which has to lie inside the table and to be as long as they are. -/
def copy? (m : Memory) (k : TableKind) (start stop : Nat) (values : List k.Cell) :
    Option Memory :=
  if start ≤ stop ∧ stop ≤ (m.table k).size ∧ stop - start = values.length then
    some (m.lay (fun _ => false) k start values)
  else none

/-- Sets the live counter and stores it in the holding register `address`. -/
def setCounter? (m : Memory) (address : Nat) (value : UInt16) : Option Memory := do
  let shown ← m.store? .holding address value
  return { shown with counter := value }

/-- Writes registers one after the other from `x` on, each by an index of its own, and passes over
those that `shielded` names. -/
def writeRegisters? (shielded : Nat → Bool) (m : Memory) (x : Nat) :
    List UInt16 → Option (Memory × List Event)
  | [] => some (m, [])
  | v :: vs =>
    if shielded x then do
      let (last, events) ← writeRegisters? shielded m (x + 1) vs
      return (last, .counterWriteIgnored x v :: events)
    else do
      let old ← m.cell? .holding x
      let next ← m.store? .holding x v
      let (last, events) ← writeRegisters? shielded next (x + 1) vs
      return (last, .registerWritten x old v :: events)

/-- Applies one seed: its own check is all that vouches for the index. -/
def applySeed? (m : Memory) (seed : Seed) : Option (Memory × List Event) :=
  match TableKind.ofName? seed.kind with
  | none => some (m, [.unknownSeedKind seed.kind])
  | some k =>
    if seed.address.toNat < m.size then do
      let stored ← m.store? k seed.address.toNat (k.cellOfWord seed.value)
      return (stored, [])
    else some (m, [.seedOutside k seed.address m.size])

/-- Applies seeds in order. -/
def applySeeds? (m : Memory) : List Seed → Option (Memory × List Event)
  | [] => some (m, [])
  | seed :: seeds => do
    let (m, warnings) ← m.applySeed? seed
    let (m, later) ← m.applySeeds? seeds
    return (m, warnings ++ later)

end Memory

namespace Device

variable {k : TableKind}

/-- Builds a device from settings that are valid. -/
def create? (s : DeviceSettings) : Option (Except SettingsError (Device × List Event)) :=
  match s.validate with
  | .error e => some (.error e)
  | .ok () => do
    let (seeded, warnings) ← (Memory.blank s.size).applySeeds? s.initialData
    let memory ← seeded.setCounter? s.counterAddress.toNat 0
    let device : Device := { unitId := s.unitId, counterAddress := s.counterAddress, memory }
    return .ok (device, warnings ++ [.deviceReady s.size s.unitId s.counterAddress])

/-- Overwrites an admitted range: registers one after the other, coils by one copy. -/
def overwrite? (d : Device) :
    (k : TableKind) → k.Writable → Nat → List k.Cell → Option (Memory × List Event)
  | .holding, _, start, values => d.memory.writeRegisters? (d.shields .holding) start values
  | .coil, _, start, values => do
    let memory ← d.memory.copy? .coil start (start + values.length) values
    return (memory, [])
  -- Nothing writes the tables that clients may only read.
  | .input, writable, _, _ => absurd writable (by decide)
  | .discrete, writable, _, _ => absurd writable (by decide)

/-- Carries out an admitted access. -/
def perform? (d : Device) : Access k → Option (Outcome Device (List k.Cell))
  | .read start quantity => do
    let cells ← d.memory.slice? k start.toNat (start.toNat + quantity.toNat)
    return { answer := cells, state := d }
  | .write writable start values => do
    let (memory, events) ← d.overwrite? k writable start.toNat values
    let cells ← memory.slice? k start.toNat (start.toNat + values.length)
    return { answer := cells, state := { d with memory }, events }

/-- Counts an access of `unitId`, and carries it out unless it is refused. -/
def access? (d : Device) (unitId : UInt8) (a : Access k) :
    Option (Outcome Device (Except Refusal (List k.Cell))) :=
  match d.refusal? unitId a.start a.quantity with
  -- A refused access comes to no slice.
  | some _ => some (d.access unitId a)
  | none => do
    let done ← { d with statistics := d.statistics.admitted }.perform? a
    return { done with answer := .ok done.answer }

/-- Advances the live counter. -/
def increment? (d : Device) : Option (Outcome Device UInt16) := do
  let memory ← d.memory.setCounter? d.counterAddress.toNat (counterAfter d.memory.counter)
  return { d.increment with state := { d with memory } }

/-- Tries accesses one after the other, up to the first that is refused. -/
def tryAll? (d : Device) : List Attempt → Option Device
  | [] => some d
  | a :: later => do
    let done ← d.access? a.unitId a.access
    match done.answer with
    | .ok _ => done.state.tryAll? later
    | .error _ => return done.state

/-- Carries out one operation. -/
def carryOut? (d : Device) (op : Operation) : Option Device :=
  if op.isIncrement then d.increment?.map (·.state) else d.tryAll? op.attempts

/-- Carries out operations one after the other. -/
def run? (d : Device) : List Operation → Option Device
  | [] => some d
  | op :: ops => do
    let next ← d.carryOut? op
    next.run? ops

end Device

/-! ## Slices and indices inside the tables -/

namespace Memory

variable {k : TableKind} {m : Memory}

theorem slice?_eq_window {start quantity : Nat} (hin : start + quantity ≤ m.size) :
    m.slice? k start (start + quantity) = some (m.window k start quantity) := by
  have hstop : start + quantity ≤ (m.table k).size := by
    rw [size_table]
    exact hin
  exact if_pos ⟨Nat.le_add_right start quantity, hstop⟩

theorem store?_eq_lay {x : Nat} (hx : x < m.size) (value : k.Cell) :
    m.store? k x value = some (m.lay (fun _ => false) k x [value]) := by
  have hin : x < (m.table k).size := by
    rw [size_table]
    exact hx
  exact if_pos hin

theorem copy?_eq_lay {start : Nat} {values : List k.Cell}
    (hin : start + values.length ≤ m.size) :
    m.copy? k start (start + values.length) values =
      some (m.lay (fun _ => false) k start values) := by
  have hstop : start + values.length ≤ (m.table k).size := by
    rw [size_table]
    exact hin
  exact if_pos ⟨Nat.le_add_right start _, hstop, Nat.add_sub_cancel_left start _⟩

theorem setCounter?_eq {address : Nat} (haddress : address < m.size) (value : UInt16) :
    m.setCounter? address value = some (m.setCounter address value) := by
  rw [setCounter?, store?_eq_lay haddress]
  rfl

theorem cell?_of_lt {x : Nat} (hx : x < m.size) :
    m.cell? .holding x = some (m.holding.getD x 0) := by
  have hin : x < m.holding.size := by
    rw [m.size_holding]
    exact hx
  have hcell : m.holding[x]? = some m.holding[x] := Array.getElem?_eq_getElem hin
  rw [Array.getD_eq_getD_getElem?, hcell]
  exact hcell

/-- The check of a seed vouches for its index. -/
theorem applySeed?_eq (m : Memory) (seed : Seed) : m.applySeed? seed = some (m.applySeed seed) := by
  unfold applySeed? applySeed
  cases TableKind.ofName? seed.kind with
  | none => rfl
  | some k =>
    by_cases hin : seed.address.toNat < m.size
    · simp [hin, store?_eq_lay hin]
    · simp [hin]

theorem applySeeds?_eq (m : Memory) (seeds : List Seed) :
    m.applySeeds? seeds = some (m.applySeeds seeds) := by
  induction seeds generalizing m with
  | nil => rfl
  | cons seed seeds ih => simp [applySeeds?, applySeeds, applySeed?_eq, ih]

/-! ## Laying values one by one -/

theorem lay_cons_of_shielded {shielded : Nat → Bool} {x : Nat} (hx : shielded x = true)
    (m : Memory) (v : k.Cell) (vs : List k.Cell) :
    m.lay shielded k x (v :: vs) = m.lay shielded k (x + 1) vs := by
  cases k <;> simp [lay, overlay, hx]

theorem lay_cons_of_not_shielded {shielded : Nat → Bool} {x : Nat} (hx : shielded x = false)
    (m : Memory) (v : k.Cell) (vs : List k.Cell) :
    m.lay shielded k x (v :: vs) =
      (m.lay (fun _ => false) k x [v]).lay shielded k (x + 1) vs := by
  cases k <;> simp [lay, overlay, hx]

end Memory

namespace Device

variable {k : TableKind} {d : Device} {s : DeviceSettings}

theorem writeEvents_cons (d : Device) (x : Nat) (v : UInt16) (vs : List UInt16) :
    d.writeEvents .holding x (v :: vs) =
      (if d.shields .holding x then .counterWriteIgnored x v
        else .registerWritten x (d.memory.holding.getD x 0) v) ::
        d.writeEvents .holding (x + 1) vs :=
  rfl

/-- The events of a write tell what its own registers held, whatever happened below them. -/
theorem writeEvents_congr {e : Device} {x : Nat} {values : List UInt16}
    (haddress : d.counterAddress = e.counterAddress)
    (hcells : ∀ y, x ≤ y → d.memory.cell? .holding y = e.memory.cell? .holding y) :
    d.writeEvents .holding x values = e.writeEvents .holding x values := by
  refine List.map_congr_left ?_
  rintro ⟨v, y⟩ hmem
  have hy : x ≤ y := List.le_snd_of_mem_zipIdx hmem
  have hcell : d.memory.holding[y]? = e.memory.holding[y]? := hcells y hy
  simp only [shields, haddress, Array.getD_eq_getD_getElem?, hcell]

/-- Registers inside the table are written one by one as they are laid at once, and each event tells
what its register held before. -/
theorem writeRegisters?_eq (d : Device) {x : Nat} {values : List UInt16}
    (hin : x + values.length ≤ d.memory.size) :
    d.memory.writeRegisters? (d.shields .holding) x values =
      some (d.memory.lay (d.shields .holding) .holding x values,
        d.writeEvents .holding x values) := by
  -- Each store changes the memory, so the induction is for all devices at once.
  induction values generalizing d x with
  | nil => rfl
  | cons v vs ih =>
    rw [List.length_cons] at hin
    rw [Memory.writeRegisters?, writeEvents_cons]
    cases hshield : d.shields .holding x with
    | true =>
      rw [if_pos rfl, if_pos rfl, ih d (by omega), Memory.lay_cons_of_shielded hshield]
      rfl
    | false =>
      -- The rest of the row is written on the device with this one register stored.
      let stored : Device :=
        { d with memory := d.memory.lay (fun _ => false) .holding x [v] }
      -- The registers that are still to be written are as they were before this store.
      have hevents : stored.writeEvents .holding (x + 1) vs =
          d.writeEvents .holding (x + 1) vs := by
        refine writeEvents_congr rfl fun y hy => ?_
        refine (Memory.cell?_lay_self (k := .holding) d.memory _ x [v] y).trans (if_neg ?_)
        rintro ⟨-, hlt, -⟩
        rw [List.length_singleton] at hlt
        omega
      have hlater := ih stored (x := x + 1) (by rw [Memory.size_lay]; omega)
      rw [hevents] at hlater
      have hx : x < d.memory.size := by omega
      rw [if_neg Bool.false_ne_true, if_neg Bool.false_ne_true,
        Memory.lay_cons_of_not_shielded hshield, Memory.cell?_of_lt hx, Memory.store?_eq_lay hx]
      exact congrArg (·.bind fun (last, events) =>
        some (last, Event.registerWritten x (d.memory.holding.getD x 0) v :: events)) hlater

/-! ## Operations on a device that realizes its settings -/

theorem overwrite?_eq (d : Device) (writable : k.Writable) {start : Nat} {values : List k.Cell}
    (hin : start + values.length ≤ d.memory.size) :
    d.overwrite? k writable start values =
      some (d.memory.lay (d.shields k) k start values, d.writeEvents k start values) := by
  cases k with
  | holding => exact writeRegisters?_eq d hin
  | coil =>
    have hshields : d.shields .coil = fun _ => false := rfl
    rw [overwrite?, Memory.copy?_eq_lay hin, hshields]
    rfl
  | input => exact absurd writable (by decide)
  | discrete => exact absurd writable (by decide)

theorem perform?_eq (d : Device) {a : Access k}
    (hin : a.start.toNat + a.quantity ≤ d.memory.size) : d.perform? a = some (d.perform a) := by
  cases a with
  | read start quantity =>
    have hrange : start.toNat + quantity.toNat ≤ d.memory.size := hin
    rw [perform?, Memory.slice?_eq_window hrange]
    rfl
  | write writable start values =>
    have hrange : start.toNat + values.length ≤ d.memory.size := hin
    -- The slice that is answered with is cut from the memory after the write.
    have hslice : (d.memory.lay (d.shields k) k start.toNat values).slice? k start.toNat
        (start.toNat + values.length) =
          some ((d.memory.lay (d.shields k) k start.toNat values).window k start.toNat
            values.length) :=
      Memory.slice?_eq_window (by rw [Memory.size_lay]; exact hrange)
    simp only [perform?, overwrite?_eq d writable hrange, Option.bind_eq_bind, Option.bind_some,
      hslice]
    rfl

/-- An access that is not refused ends inside the tables. -/
theorem le_size_of_refusal?_eq_none {unitId : UInt8} {start : UInt16} {quantity : Nat}
    (hrefusal : d.refusal? unitId start quantity = none) :
    start.toNat + quantity ≤ d.memory.size := by
  unfold refusal? at hrefusal
  split at hrefusal
  · cases hrefusal
  · split at hrefusal
    · cases hrefusal
    · rename_i hrange
      exact Nat.not_lt.mp hrange

/-- An admission vouches for all slices and indices of the access. -/
theorem access?_eq (d : Device) (unitId : UInt8) (a : Access k) :
    d.access? unitId a = some (d.access unitId a) := by
  cases hrefusal : d.refusal? unitId a.start a.quantity with
  | some refusal => rw [access?, hrefusal]
  | none =>
    have hperform := perform?_eq { d with statistics := d.statistics.admitted }
      (le_size_of_refusal?_eq_none hrefusal)
    simp only [access?, access, hrefusal, hperform, Option.bind_eq_bind, Option.bind_some]
    rfl

theorem tryAll?_eq (d : Device) (attempts : List Attempt) :
    d.tryAll? attempts = some (d.tryAll attempts) := by
  -- The device changes with each access, so the induction is for all devices at once.
  induction attempts generalizing d with
  | nil => rfl
  | cons a later ih =>
    simp only [tryAll?, tryAll, access?_eq, Option.bind_eq_bind, Option.bind_some]
    cases (d.access a.unitId a.access).answer with
    | ok cells => exact ih _
    | error refusal => rfl

/-- The valid settings vouch for the index of the live counter. -/
theorem Realizes.increment?_eq (h : d.Realizes s) : d.increment? = some d.increment := by
  have haddress : d.counterAddress.toNat < d.memory.size := by
    rw [h.counterAddress_eq, h.size_eq]
    exact h.valid.2.2.1
  rw [increment?, Memory.setCounter?_eq haddress]
  rfl

theorem Realizes.carryOut?_eq (h : d.Realizes s) (op : Operation) :
    d.carryOut? op = some (d.apply op).state := by
  rw [carryOut?, state_apply]
  split
  · rw [h.increment?_eq]
    rfl
  · exact tryAll?_eq d op.attempts

theorem Realizes.run?_eq (h : d.Realizes s) (ops : List Operation) :
    d.run? ops = some (d.run ops).state := by
  induction ops generalizing d with
  | nil => rfl
  | cons op ops ih =>
    rw [run?, h.carryOut?_eq]
    exact ih (h.apply op)

/-! ## Building a device -/

/-- A device is not built exactly for the reason that the settings are not valid. -/
theorem create_eq_error_iff (s : DeviceSettings) (e : SettingsError) :
    create s = .error e ↔ s.validate = .error e := by
  unfold create
  cases s.validate with
  | error reason => simp [bind, Except.bind]
  | ok u => simp [bind, Except.bind, pure, Except.pure]

theorem create?_eq (s : DeviceSettings) : create? s = some (create s) := by
  cases hvalidate : s.validate with
  | error e => rw [create?, hvalidate, (create_eq_error_iff s e).mpr hvalidate]
  | ok u =>
    have haddress : s.counterAddress.toNat <
        ((Memory.blank s.size).applySeeds s.initialData).1.size := by
      rw [Memory.size_applySeeds]
      exact (s.validate_eq_ok_iff.mp hvalidate).2.2.1
    simp only [create?, create, hvalidate, Memory.applySeeds?_eq, Option.bind_eq_bind,
      Option.bind_some, Memory.setCounter?_eq haddress]
    rfl

/-! ## Where the tables end -/

/-- The device carries the access out, from inside the program and for a client alike, and answers
with as many cells as it is about. -/
def Grants (d : Device) (unitId : UInt8) (a : Access k) : Prop :=
  ∃ cells : List k.Cell, (d.access unitId a).answer = .ok cells ∧
    (d.handle unitId a).answer = .ok cells ∧ cells.length = a.quantity

/-- An access for the unit is granted exactly when it ends inside the tables. -/
theorem Realizes.grants_iff (h : d.Realizes s) (a : Access k) :
    d.Grants s.unitId a ↔ a.start.toNat + a.quantity ≤ s.size := by
  constructor
  · rintro ⟨cells, hanswer, -⟩
    exact (h.admits_of_answer_access hanswer).1.2
  · intro hrange
    have hanswer := h.answer_access_of_admits (a := a) ⟨rfl, hrange⟩
    refine ⟨_, hanswer, (answer_handle ..).trans hanswer, Memory.length_window _ _ _ ?_⟩
    rw [(h.access s.unitId a).size_eq]
    exact hrange

theorem Realizes.answer_access_of_size_lt (h : d.Realizes s) {a : Access k}
    (hrange : s.size < a.start.toNat + a.quantity) :
    (d.access s.unitId a).answer = .error (.outOfRange a.start a.quantity s.size) := by
  rw [h.answer_access, if_neg (not_not_intro rfl), if_pos hrange]

/-- What makes every slice and index of the operations safe: the tables are as long as the settings
say, the counter lies inside them, and so the checked operations do what the operations do. -/
structure WithinTables (d : Device) (s : DeviceSettings) : Prop where
  -- What the settings and the device agree on.
  one_le_size : 1 ≤ s.size
  size_le : s.size ≤ maxTableSize
  size_table : ∀ k, (d.memory.table k).size = s.size
  counterAddress_lt : d.counterAddress.toNat < s.size
  -- What follows for the operations, admitted or not.
  access?_eq : ∀ (k : TableKind) (unitId : UInt8) (a : Access k),
    d.access? unitId a = some (d.access unitId a)
  increment?_eq : d.increment? = some d.increment
  carryOut?_eq : ∀ op, d.carryOut? op = some (d.apply op).state

theorem Realizes.withinTables (h : d.Realizes s) : d.WithinTables s where
  one_le_size := h.valid.1
  size_le := h.valid.2.1
  size_table k := (Memory.size_table d.memory k).trans h.size_eq
  counterAddress_lt := by
    rw [h.counterAddress_eq]
    exact h.valid.2.2.1
  access?_eq _ unitId a := d.access?_eq unitId a
  increment?_eq := h.increment?_eq
  carryOut?_eq := h.carryOut?_eq

end Device

/-- A device is built exactly from valid settings, and neither building it nor any run on it takes a
slice or an index outside a table.  After every run, an access for its unit is granted exactly when
it ends at or before the end of the tables.  So the read of no cells right behind the last one is
granted, and so is the write of all cells at once, but no longer one. -/
theorem no_index_leaves_its_table (s : DeviceSettings) :
    (∀ e, Device.create s = .error e ↔ s.validate = .error e) ∧
    Device.create? s = some (Device.create s) ∧
    ∀ (first : Device) (warnings : List Event), Device.create s = .ok (first, warnings) →
    ∀ ops : List Operation,
      first.run? ops = some (first.run ops).state ∧
      (first.run ops).state.WithinTables s ∧
      ∀ k : TableKind,
        (∀ a : Access k, (first.run ops).state.Grants s.unitId a ↔
          a.start.toNat + a.quantity ≤ s.size) ∧
        (∀ a : Access k, s.size < a.start.toNat + a.quantity →
          ((first.run ops).state.access s.unitId a).answer =
            .error (.outOfRange a.start a.quantity s.size)) ∧
        (s.size < maxTableSize →
          (first.run ops).state.Grants s.unitId (k := k) (.read s.size.toUInt16 0)) ∧
        ∀ (writable : k.Writable) (values : List k.Cell),
          (first.run ops).state.Grants s.unitId (.write writable 0 values) ↔
            values.length ≤ s.size := by
  refine ⟨Device.create_eq_error_iff s, Device.create?_eq s, ?_⟩
  intro first warnings hcreate ops
  have hfirst : first.Realizes s := Device.realizes_of_create hcreate
  have h : (first.run ops).state.Realizes s := hfirst.run ops
  refine ⟨hfirst.run?_eq ops, h.withinTables, fun k => ⟨h.grants_iff, ?_, ?_, ?_⟩⟩
  · exact fun _ hrange => h.answer_access_of_size_lt hrange
  · intro hsize
    -- The end of the tables has an address of its own, unless they are as long as tables can be.
    have haddress : s.size.toUInt16.toNat = s.size := toNat_toUInt16_of_le (by
      unfold maxTableSize at hsize
      omega)
    refine (h.grants_iff _).mpr ?_
    show s.size.toUInt16.toNat + 0 ≤ s.size
    omega
  · intro writable values
    refine (h.grants_iff _).trans ?_
    show 0 + values.length ≤ s.size ↔ values.length ≤ s.size
    rw [Nat.zero_add]

/-- After the counter moved, four cells can be written at once but five cannot, and a read of no
cells is granted at the fifth address. -/
theorem four_cells_granted_and_no_fifth :
    Device.create fourCells = .ok (fourCellDevice, [.deviceReady 4 1 1]) ∧
      fourCellDevice.run? [.increment] = some (fourCellDevice.run [.increment]).state ∧
      (fourCellDevice.run [.increment]).state.WithinTables fourCells ∧
      (fourCellDevice.run [.increment]).state.Grants 1 (k := .discrete) (.read 4 0) ∧
      (fourCellDevice.run [.increment]).state.Grants 1 (k := .holding)
        (.write (by decide) 0 [5, 6, 7, 8]) ∧
      ((fourCellDevice.run [.increment]).state.access 1 (k := .coil)
        (.write (by decide) 0 [true, true, true, true, true])).answer =
          .error (.outOfRange 0 5 4) := by
  rcases (no_index_leaves_its_table fourCells).2.2 _ _ create_fourCells [.increment] with
    ⟨hrun, hwithin, hgrants⟩
  rcases hgrants .discrete with ⟨-, -, hempty, -⟩
  rcases hgrants .holding with ⟨-, -, -, hwrite⟩
  rcases hgrants .coil with ⟨-, hrefused, -, -⟩
  exact ⟨create_fourCells, hrun, hwithin, hempty (by decide), (hwrite _ _).mpr (by decide),
    hrefused _ (by decide)⟩

end Fieldbus
