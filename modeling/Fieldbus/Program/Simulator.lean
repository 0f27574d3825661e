import Fieldbus.Network.Address
import Fieldbus.Program.Interface.Reading
import Fieldbus.Program.Interface.Text
import Fieldbus.Program.Sinks

/-!
# The simulator

The program that serves a simulated device: it loads its settings, opens the sinks of its journal,
and has a supervisor bring the device up and take it down again when a signal arrives.
-/

namespace Fieldbus.Program.Simulator

/-- The version of the program. -/
def version : String := "0.1.0"

/-- The environment variable that names the settings file. -/
def settingsVariable : String := "MODBUS_SIM_CONFIG"

/-- The command line of the simulator. -/
def interface : Interface where
  name := "modbus-slave-sim"
  about := "Modbus TCP slave simulator"
  version := some version
  parameters :=
    [{ name := "config"
       letter := some 'c'
       placeholder := "CONFIG"
       rule := .path
       help := "Path to the JSON configuration file; created with defaults if missing"
       setting := some settingsVariable
       standard := "config.json" }]

/-- The path of the settings file among the values of the parameters. -/
def settingsPath (values : List (String × String)) : String :=
  (values.lookup "config").getD ""

/-- What the supervisor is told.  A listener that cannot be bound fails at every attempt. -/
def plan (s : Settings) : Plan :=
  let bindError := Address.bindError? s.server.address
  { retry := ⟨s.server.maxRetries.toNat, s.server.retryDelay.toNat * 1000⟩
    counterPeriod := s.device.updateInterval.toNat * 1000
    shutdownTimeout := s.server.shutdownTimeout.toNat * 1000
    transport :=
      { failures := if bindError.isSome then s.server.maxRetries.toNat + 1 else 0
        message := (bindError.map (·.message)).getD ""
        upEvents := [.listenerBound s.server.bindAddress s.server.maxClients.toNat]
        downEvents := [.listenerStopped] } }

/-- The stage of a supervisor that waits for a signal, which arrives as soon as it does. -/
def stage : Stage (Process World) :=
  { World.stage with
    awaitToken := do
      Process.report .shutdownSignalled
      modify World.fire }

/-- How the program ends when its supervisor has come to an end, and what it reports then.  A signal
during the start is no failure. -/
def ending : Except SupervisorError Unit → Except Failure Unit × List Event
  | .ok () => (.ok (), [.programStopped])
  | .error .cancelled => (.ok (), [.shutdownDuringStartup, .programStopped])
  | .error (.startFailed attempts reason) =>
    let e := SupervisorError.startFailed attempts reason
    (.error (.supervisor e), [.programFailed e.message])
  | .error (.shutdownTimeout milliseconds) =>
    let e := SupervisorError.shutdownTimeout milliseconds
    (.error (.supervisor e), [.shutdownFailed e.message])

/-- Serves a device until a signal arrives, and reports how that ended. -/
def serve {m : Type → Type} [Monad m] (stage : Stage m) : m (Except Failure Unit) := do
  let (result, events) := ending (← stage.runToEnd)
  stage.act (Process.reportAll events)
  return result

/-- The events at the beginning. -/
def openingEvents (path : String) (source : Source) : List Event :=
  (if source = .createdDefaults then [.settingsCreated path] else []) ++
    [.programStarting version path]

/-- Serves a device with settings that have been loaded from a path. -/
def simulate (path : String) (s : Settings) (source : Source) :
    Except Failure Unit × List Event :=
  let opening := openingEvents path source
  match Device.create s.device with
  | .error e => (.error (.settings e), opening)
  | .ok (device, events) =>
    let done := (serve stage).run { plan := plan s, device }
    (done.answer, opening ++ events ++ done.events)

/-- The end of a program that may have failed. -/
def finish (result : Except Failure Unit) (out : String) (files : Files.Tree) : Finished :=
  match result with
  | .ok () => { out, files }
  | .error f => { status := 1, out, error := f.report, files }

/-- Runs the program with the settings at a path. -/
def runWith (machine : Machine) (path : String) : Finished :=
  match Settings.load machine.files path with
  | (.error e, files) => finish (.error (.load path e)) "" files
  | (.ok (s, source), files) =>
    match s.validate with
    | .error e => finish (.error (.settings e)) "" files
    | .ok () =>
      match Sinks.ofSettings machine files s.logging with
      | (.error f, files) => finish (.error f) "" files
      | (.ok sinks, files) =>
        let (result, events) := simulate path s source
        let entries := events.map (·.entry)
        finish result (sinks.consoleText machine.time entries)
          (sinks.writeFile machine files entries)

/-- Runs the program with command-line arguments. -/
def run (machine : Machine) (arguments : List String) : Finished :=
  match interface.read machine.environment arguments with
  | .error why => interface.finish machine why
  | .ok values => runWith machine (settingsPath values)

end Fieldbus.Program.Simulator
