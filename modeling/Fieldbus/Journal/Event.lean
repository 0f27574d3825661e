import Fieldbus.Journal.Entry
import Fieldbus.Lifecycle
import Fieldbus.Settings.Basic
import Fieldbus.Table
import Fieldbus.Text.Duration
import Fieldbus.Wire.Request

/-!
# Events

Everything that the program reports is one of these events.  `Event.entry` gives the entry of the
journal that shows it, and `Event.InBackground` tells the events of tasks that run beside the main
one, whose order against its events is not fixed.
-/

namespace Fieldbus

/-- What happened. -/
inductive Event where
  -- building a device
  | unknownSeedKind (kind : String)
  | seedOutside (table : TableKind) (address : UInt16) (size : Nat)
  | deviceReady (size : Nat) (unitId : UInt8) (counterAddress : UInt16)
  -- serving accesses
  | wrongUnit (table : TableKind) (requested expected : UInt8)
  | outOfRange (table : TableKind) (start : UInt16) (quantity size : Nat)
  | counterWriteIgnored (address : Nat) (attempted : UInt16)
  | registerWritten (address : Nat) (old new : UInt16)
  | accessHandled (table : TableKind) (writes : Bool) (unitId : UInt8) (start : UInt16)
      (quantity : Nat)
  | unsupportedFunction (unitId : UInt8) (request : Request)
  -- the live counter
  | counterOverflow (address : UInt16)
  | counterUpdated (address old new : UInt16)
  -- the listener and its clients
  | listenerBound (address : String) (maxClients : Nat)
  | listenerStopped
  | clientConnected (peer : String)
  | clientRefused (peer : String)
  | clientDisconnected (peer : String)
  | connectionFailed (reason : String)
  -- the lifecycle
  | transition (source target : Lifecycle)
  | startRetried (attempt limit : Nat)
  | startAttempted (attempt : Nat)
  | startFailed (reason : String) (attempt : Nat)
  | started
  | stopping
  | taskFailed
  | tasksStopped
  | shutdownTimeout (milliseconds : Nat)
  -- the periodic loops
  | counterLoopStarted (period : Nat)
  | counterLoopStopping
  | healthLoopStopping
  | healthChecked (requests errors identityErrors addressErrors : UInt64) (counter : UInt16)
  -- the program
  | settingsCreated (path : String)
  | programStarting (version path : String)
  | shutdownSignalled
  | shutdownDuringStartup
  | programFailed (reason : String)
  | shutdownFailed (reason : String)
  | programStopped
  deriving DecidableEq, Repr

namespace Event

open Journal Journal.Detail

private def storeTarget : String := "modbus_slave_sim::slave::store"
private def dispatcherTarget : String := "modbus_slave_sim::slave::dispatcher"
private def transportTarget : String := "modbus_slave_sim::transport::tcp"
private def supervisorTarget : String := "modbus_slave_sim::supervisor"
private def tasksTarget : String := "modbus_slave_sim::tasks"
private def programTarget : String := "modbus_slave_sim"

private def handledMessage : TableKind → String
  | .holding => "Holding registers handled"
  | .input => "Input registers handled"
  | .coil => "Coils handled"
  | .discrete => "Discrete inputs handled"

/-- Tables that clients may write name the operation; the others are only read. -/
private def operationDetail (table : TableKind) (writes : Bool) : List (String × Detail) :=
  if table.Writable then [("operation", label (if writes then "write" else "read"))] else []

/-- The entry of the journal that shows the event. -/
def entry : Event → Entry
  | unknownSeedKind kind =>
    ⟨.warn, storeTarget, "Unknown initial data type in config, skipping", [("kind", text kind)]⟩
  | seedOutside table address size =>
    ⟨.warn, storeTarget, "Initial data address out of bounds, skipping",
      [("table", text table.name), ("address", number address.toNat), ("max", number size)]⟩
  | deviceReady size unitId counterAddress =>
    ⟨.info, storeTarget, "Register store initialized",
      [("max_registers", number size), ("unit_id", number unitId.toNat),
        ("counter_address", number counterAddress.toNat)]⟩
  | wrongUnit table requested expected =>
    ⟨.warn, storeTarget, "Invalid unit ID",
      [("table", text table.name), ("requested", number requested.toNat),
        ("expected", number expected.toNat)]⟩
  | outOfRange table start quantity size =>
    ⟨.warn, storeTarget, "Address out of bounds",
      [("table", text table.name), ("start", number start.toNat), ("quantity", number quantity),
        ("max", number size)]⟩
  | counterWriteIgnored address attempted =>
    ⟨.debug, storeTarget, "Write to counter register ignored",
      [("address", number address), ("attempted", number attempted.toNat)]⟩
  | registerWritten address old new =>
    ⟨.debug, storeTarget, "Register written",
      [("address", number address), ("old", number old.toNat), ("new", number new.toNat)]⟩
  | accessHandled table writes unitId start quantity =>
    ⟨.debug, dispatcherTarget, handledMessage table,
      operationDetail table writes ++
        [("unit_id", number unitId.toNat), ("start", number start.toNat),
          ("quantity", number quantity)]⟩
  | unsupportedFunction unitId request =>
    ⟨.debug, transportTarget, "Unsupported function",
      [("unit_id", number unitId.toNat), ("request", text request.text)]⟩
  | counterOverflow address =>
    ⟨.warn, storeTarget, "Counter overflow, resetting", [("address", number address.toNat)]⟩
  | counterUpdated address old new =>
    ⟨.debug, storeTarget, "Counter updated",
      [("address", number address.toNat), ("old", number old.toNat), ("new", number new.toNat)]⟩
  | listenerBound address maxClients =>
    ⟨.info, transportTarget, "Modbus TCP listener bound",
      [("address", text address), ("max_clients", number maxClients)]⟩
  | listenerStopped => ⟨.info, transportTarget, "Modbus TCP listener stopped", []⟩
  | clientConnected peer => ⟨.debug, transportTarget, "Client connected", [("peer", text peer)]⟩
  | clientRefused peer =>
    ⟨.warn, transportTarget, "Client limit reached, refusing connection", [("peer", text peer)]⟩
  | clientDisconnected peer =>
    ⟨.debug, transportTarget, "Client disconnected", [("peer", text peer)]⟩
  | connectionFailed reason =>
    ⟨.warn, transportTarget, "Client connection closed with error", [("error", text reason)]⟩
  | transition source target =>
    ⟨.debug, supervisorTarget, "Lifecycle transition",
      [("from", text source.name), ("to", text target.name)]⟩
  | startRetried attempt limit =>
    ⟨.warn, supervisorTarget, "Retrying server start",
      [("attempt", number attempt), ("max", number limit)]⟩
  | startAttempted attempt =>
    ⟨.info, supervisorTarget, "Starting server", [("attempt", number attempt)]⟩
  | startFailed reason attempt =>
    ⟨.error, supervisorTarget, "Server start failed",
      [("error", text reason), ("attempt", number attempt)]⟩
  | started => ⟨.info, supervisorTarget, "Server started successfully", []⟩
  | stopping => ⟨.info, supervisorTarget, "Stopping server", []⟩
  -- A task fails for want of a period; the number that the system gives it is not shown.
  | taskFailed =>
    ⟨.error, supervisorTarget, "Background task failed",
      [("error", text "task panicked with message \"`period` must be non-zero.\"")]⟩
  | tasksStopped => ⟨.info, supervisorTarget, "All background tasks stopped", []⟩
  | shutdownTimeout milliseconds =>
    ⟨.warn, supervisorTarget, "Shutdown timeout, some tasks may still be running",
      [("timeout", text (durationText milliseconds))]⟩
  | counterLoopStarted period =>
    ⟨.debug, tasksTarget, "Register updater started", [("period", text (durationText period))]⟩
  | counterLoopStopping => ⟨.debug, tasksTarget, "Register updater stopping", []⟩
  | healthLoopStopping => ⟨.debug, tasksTarget, "Health checker stopping", []⟩
  | healthChecked requests errors identityErrors addressErrors counter =>
    ⟨.info, tasksTarget, "Health check",
      [("requests_handled", number requests.toNat), ("errors", number errors.toNat),
        ("identity_errors", number identityErrors.toNat),
        ("address_errors", number addressErrors.toNat), ("counter", number counter.toNat)]⟩
  | settingsCreated path =>
    ⟨.info, programTarget,
      "Config file not found, created with defaults - edit it and restart to customize settings",
      [("config", text path)]⟩
  | programStarting version path =>
    ⟨.info, programTarget, "Starting Modbus server",
      [("version", label version), ("config", text path)]⟩
  | shutdownSignalled => ⟨.info, programTarget, "Shutdown signal received", []⟩
  | shutdownDuringStartup => ⟨.warn, programTarget, "Shutdown requested during startup", []⟩
  | programFailed reason =>
    ⟨.error, programTarget, "Failed to start server", [("error", text reason)]⟩
  | shutdownFailed reason =>
    ⟨.error, programTarget, "Error during shutdown", [("error", text reason)]⟩
  | programStopped => ⟨.info, programTarget, "Server stopped successfully", []⟩

/-- The event belongs to a task beside the main one: a loop that starts or ends, or a connection
that ends. -/
def InBackground : Event → Prop
  | counterLoopStarted _ | counterLoopStopping | healthLoopStopping => True
  | clientDisconnected _ | connectionFailed _ => True
  | _ => False

instance (e : Event) : Decidable e.InBackground := by
  cases e <;> unfold InBackground <;> infer_instance

end Event

end Fieldbus
