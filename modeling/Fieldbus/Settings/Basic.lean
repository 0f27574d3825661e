/-!
# Settings

What an operator decides about the simulated device, in three sections: the listener, the
journal, and the device itself.  Every field has a default.  `Settings.validate` names the first
rule that a value breaks; seeds are not validated, because a device skips the ones it cannot use.
-/

namespace Fieldbus

/-- One initial value: the name of a table, a cell of it, and the word to store there.  The name is
free text, which need not name a table. -/
structure Seed where
  kind : String
  address : UInt16
  value : UInt16
  deriving DecidableEq, Repr

/-- The device: its unit id, the length of its tables, the holding register that shows the live
counter, the seconds between two increments of it, and the initial values. -/
structure DeviceSettings where
  unitId : UInt8 := 1
  maxRegisters : UInt64 := 1000
  counterAddress : UInt16 := 102
  updateInterval : UInt64 := 1
  initialData : List Seed :=
    [⟨"holding", 100, 2025⟩, ⟨"holding", 101, 1234⟩, ⟨"coil", 0, 1⟩, ⟨"discrete", 0, 1⟩,
      ⟨"input", 100, 5678⟩]
  deriving DecidableEq, Repr

/-- The listener: where it binds, how many clients it serves at a time, after how many seconds of
silence it drops one, and how starting and stopping are bounded. -/
structure ServerSettings where
  address : String := "0.0.0.0"
  port : UInt16 := 1502
  maxClients : UInt64 := 10
  timeout : UInt64 := 30
  maxRetries : UInt32 := 3
  retryDelay : UInt64 := 5
  shutdownTimeout : UInt64 := 30
  deriving DecidableEq, Repr

/-- The journal: the least severe level to show, the file that it goes to (none if the name is
empty), and whether it is shown on the console. -/
structure LoggingSettings where
  level : String := "INFO"
  file : String := "modbus_server.jsonl"
  console : Bool := true
  deriving DecidableEq, Repr

/-- All settings of the program. -/
structure Settings where
  server : ServerSettings := {}
  logging : LoggingSettings := {}
  device : DeviceSettings := {}
  deriving DecidableEq, Repr

/-- The rule that some settings break. -/
inductive SettingsError where
  | noClients
  | tableSize (given : UInt64)
  | counterOutside (address : UInt16) (size : UInt64)
  | noInterval
  deriving DecidableEq, Repr

/-- No table has more cells than 16-bit addresses can tell apart. -/
def maxTableSize : Nat := 65536

namespace SettingsError

/-- The wording of the broken rule, for an operator. -/
def message : SettingsError → String
  | .noClients => "invalid configuration: max_clients must be at least 1"
  | .tableSize given =>
    s!"invalid configuration: max_registers must be within 1..={maxTableSize}, got {given.toNat}"
  | .counterOutside address size =>
    s!"invalid configuration: counter_address {address.toNat} is outside the {size.toNat} " ++
      "register table"
  | .noInterval => "invalid configuration: update_interval must be at least 1 second"

end SettingsError

namespace DeviceSettings

/-- The number of cells in each table. -/
def size (s : DeviceSettings) : Nat := s.maxRegisters.toNat

/-- Checks the length of the tables, then that the counter lies inside them, then that the counter
advances at all. -/
def validate (s : DeviceSettings) : Except SettingsError Unit :=
  if s.size = 0 ∨ maxTableSize < s.size then .error (.tableSize s.maxRegisters)
  else if s.size ≤ s.counterAddress.toNat then
    .error (.counterOutside s.counterAddress s.maxRegisters)
  else if s.updateInterval = 0 then .error .noInterval
  else .ok ()

/-- The settings that a device can be built from. -/
def Valid (s : DeviceSettings) : Prop :=
  0 < s.size ∧ s.size ≤ maxTableSize ∧ s.counterAddress.toNat < s.size ∧ s.updateInterval ≠ 0

theorem validate_eq_ok_iff (s : DeviceSettings) : s.validate = .ok () ↔ s.Valid := by
  unfold validate Valid
  split
  · simp; omega
  · split
    · simp; omega
    · split
      · simp_all
      · simp_all
        omega

end DeviceSettings

namespace ServerSettings

/-- The address that the listener binds to. -/
def bindAddress (s : ServerSettings) : String :=
  s!"{s.address}:{s.port.toNat}"

end ServerSettings

/-- A listener has room for at least one client, and the device can be built. -/
def Settings.validate (s : Settings) : Except SettingsError Unit :=
  if s.server.maxClients = 0 then .error .noClients else s.device.validate

end Fieldbus
