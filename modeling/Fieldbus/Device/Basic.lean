import Fieldbus.Device.Memory
import Fieldbus.Device.Statistics
import Fieldbus.Journal.Outcome

/-!
# Devices

A device answers for one unit id, keeps the memory with the live counter in one holding register,
and counts the accesses asked of it.  `Device.create` builds it from settings: the seeds are applied
in order, those that name no table or lie outside are skipped with a warning, and the counter starts
at zero whatever was seeded there.
-/

namespace Fieldbus

/-- The simulated device. -/
structure Device where
  unitId : UInt8
  counterAddress : UInt16
  memory : Memory
  statistics : Statistics := {}
  deriving DecidableEq

namespace Memory

/-- Applies one seed, or warns why it is skipped. -/
def applySeed (m : Memory) (seed : Seed) : Memory × List Event :=
  match TableKind.ofName? seed.kind with
  | none => (m, [.unknownSeedKind seed.kind])
  | some k =>
    if seed.address.toNat < m.size then
      (m.lay (fun _ => false) k seed.address.toNat [k.cellOfWord seed.value], [])
    else (m, [.seedOutside k seed.address m.size])

/-- Applies seeds in order, with the warnings about those that are skipped. -/
def applySeeds (m : Memory) : List Seed → Memory × List Event
  | [] => (m, [])
  | seed :: seeds =>
    let (m, warnings) := m.applySeed seed
    let (m, later) := m.applySeeds seeds
    (m, warnings ++ later)

end Memory

namespace Device

/-- Builds a device from settings that are valid. -/
def create (s : DeviceSettings) : Except SettingsError (Device × List Event) := do
  s.validate
  let (memory, warnings) := (Memory.blank s.size).applySeeds s.initialData
  let device : Device :=
    { unitId := s.unitId
      counterAddress := s.counterAddress
      memory := memory.setCounter s.counterAddress.toNat 0 }
  return (device, warnings ++ [.deviceReady s.size s.unitId s.counterAddress])

/-- The number of cells in each table. -/
def size (d : Device) : Nat := d.memory.size

/-- The value of the live counter. -/
def counter (d : Device) : UInt16 := d.memory.counter

/-- The cell that clients cannot change: the holding register that shows the counter. -/
def shields (d : Device) (k : TableKind) (x : Nat) : Bool :=
  k = .holding && x == d.counterAddress.toNat

/-- The counter after `value`: it grows by one and goes from its greatest value to one, so that zero
is only seen before the first increment. -/
def counterAfter (value : UInt16) : UInt16 :=
  if value + 1 = 0 then 1 else value + 1

/-- Advances the live counter. -/
def increment (d : Device) : Outcome Device UInt16 :=
  let old := d.memory.counter
  let new := counterAfter old
  let overflow := if old + 1 = 0 then [Event.counterOverflow d.counterAddress] else []
  { answer := new
    state := { d with memory := d.memory.setCounter d.counterAddress.toNat new }
    events := overflow ++ [.counterUpdated d.counterAddress old new] }

end Device

end Fieldbus
