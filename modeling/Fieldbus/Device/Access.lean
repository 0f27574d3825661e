import Fieldbus.Device.Basic

/-!
# Accesses to the tables

An access reads or writes a range of neighbouring cells of one table.  It is admitted when it is for
the unit of the device and its range ends inside the table; the unit is looked at first.  An access
that is refused changes nothing but the statistics.
-/

namespace Fieldbus

/-- A read or a write of neighbouring cells of the table `k`. -/
inductive Access (k : TableKind) where
  | read (start quantity : UInt16)
  | write (writable : k.Writable) (start : UInt16) (values : List k.Cell)

namespace Access

/-- The first cell of the range. -/
def start {k : TableKind} : Access k → UInt16
  | .read start _ => start
  | .write _ start _ => start

/-- The number of cells in the range. -/
def quantity {k : TableKind} : Access k → Nat
  | .read _ quantity => quantity.toNat
  | .write _ _ values => values.length

/-- Whether the access writes. -/
def writes {k : TableKind} : Access k → Bool
  | .read .. => false
  | .write .. => true

end Access

/-- Why an access was refused. -/
inductive Refusal where
  | wrongUnit (requested expected : UInt8)
  | outOfRange (start : UInt16) (quantity size : Nat)
  deriving DecidableEq, Repr

namespace Refusal

/-- The wording of the refusal. -/
def message : Refusal → String
  | .wrongUnit requested expected =>
    s!"request for unit {requested.toNat} but this device is unit {expected.toNat}"
  | .outOfRange start quantity size =>
    s!"range {start.toNat}+{quantity} exceeds table length {size}"

/-- The exception that a client gets for the refusal. -/
def exceptionCode : Refusal → ExceptionCode
  | .wrongUnit .. => .illegalFunction
  | .outOfRange .. => .illegalDataAddress

/-- The event that reports the refusal of an access to the table `k`. -/
def event (k : TableKind) : Refusal → Event
  | .wrongUnit requested expected => .wrongUnit k requested expected
  | .outOfRange start quantity size => .outOfRange k start quantity size

/-- The statistics after the refusal. -/
def count : Refusal → Statistics → Statistics
  | .wrongUnit .., s => s.refusedForUnit
  | .outOfRange .., s => s.refusedForRange

end Refusal

namespace Device

variable {k : TableKind}

/-- The reason to refuse an access of `unitId` to `quantity` cells from `start` on, if there is
one. -/
def refusal? (d : Device) (unitId : UInt8) (start : UInt16) (quantity : Nat) : Option Refusal :=
  if unitId ≠ d.unitId then some (.wrongUnit unitId d.unitId)
  else if d.size < start.toNat + quantity then some (.outOfRange start quantity d.size)
  else none

/-- The events of writing `values` from `start` on: one for each holding register in ascending
order, none for coils. -/
def writeEvents (d : Device) : (k : TableKind) → Nat → List k.Cell → List Event
  | .holding, start, values =>
    (values.zipIdx start).map fun (v, x) =>
      if d.shields .holding x then .counterWriteIgnored x v
      else .registerWritten x (d.memory.holding.getD x 0) v
  | _, _, _ => []

/-- Carries out an admitted access: a write lays its values over the table, and both answer with
the cells of the range afterwards. -/
def perform (d : Device) : Access k → Outcome Device (List k.Cell)
  | .read start quantity =>
    { answer := d.memory.window k start.toNat quantity.toNat
      state := d }
  | .write _ start values =>
    let events := d.writeEvents k start.toNat values
    let memory := d.memory.lay (d.shields k) k start.toNat values
    { answer := memory.window k start.toNat values.length
      state := { d with memory }
      events }

/-- Counts an access of `unitId`, and carries it out unless it is refused. -/
def access (d : Device) (unitId : UInt8) (a : Access k) :
    Outcome Device (Except Refusal (List k.Cell)) :=
  match d.refusal? unitId a.start a.quantity with
  | some refusal =>
    { answer := .error refusal
      state := { d with statistics := refusal.count d.statistics }
      events := [refusal.event k] }
  | none =>
    let done := { d with statistics := d.statistics.admitted }.perform a
    { done with answer := .ok done.answer }

/-- An access on behalf of a client: the same, and reported when it was carried out. -/
def handle (d : Device) (unitId : UInt8) (a : Access k) :
    Outcome Device (Except Refusal (List k.Cell)) :=
  let done := d.access unitId a
  match done.answer with
  | .error _ => done
  | .ok _ =>
    { done with
      events := done.events ++ [.accessHandled k a.writes unitId a.start a.quantity] }

end Device

end Fieldbus
