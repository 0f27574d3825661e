import Fieldbus.Journal.Line
import Fieldbus.Network.Address
import Fieldbus.Program.Failure
import Fieldbus.Program.Interface.Reading
import Fieldbus.Program.Interface.Text
import Fieldbus.Program.Machine

/-!
# The checker

The program that lets many clients try a simulated device at once and counts what they find.  Here
is all of it up to the connections, on a machine without a way to the device: every client fails to
connect.
-/

namespace Fieldbus.Program.Checker

open Journal

/-- The command line of the checker. -/
def interface : Interface where
  name := "stress_tester"
  about := "Concurrent conformance check against a Modbus slave simulator"
  parameters :=
    [{ name := "host"
       placeholder := "HOST"
       rule := .text
       help := "Simulator address, host:port"
       standard := "localhost:1502" },
     { name := "unit-id"
       placeholder := "UNIT_ID"
       rule := .number 255
       help := "Unit id the simulator answers to"
       standard := "1" },
     { name := "clients"
       placeholder := "CLIENTS"
       rule := .number 65535
       help := "Number of concurrent clients"
       standard := "5" },
     { name := "duration"
       placeholder := "DURATION"
       rule := .wideNumber
       help := "Test duration in seconds"
       standard := "30" },
     { name := "rate"
       placeholder := "RATE"
       rule := .number 4294967295
       help := "Test sequences per second, per client"
       standard := "10" },
     { name := "counter-addr"
       placeholder := "COUNTER_ADDR"
       rule := .number 65535
       help := "Address of the auto-incrementing counter register"
       standard := "102" }]

/-- The number that a parameter has been given. -/
def number (values : List (String × String)) (name : String) : Nat :=
  match readUnsigned (UInt64.size - 1) ((values.lookup name).getD "").toList with
  | .ok n => n
  | .error _ => 0

/-- The address of the device in numbers: the host as it is written, or the machine itself. -/
def resolve (address : String) : Except Failure String := do
  let (port, host) := address.toList.reverse.span (· ≠ ':')
  match host with
  | [] => throw .socketAddress
  | _ :: host =>
    let host := host.reverse
    match readUnsigned 65535 port.reverse with
    | .error _ => throw .portNumber
    | .ok port =>
      match Address.numbers? host with
      | some [a, b, c, d] => return s!"{a}.{b}.{c}.{d}:{port}"
      | _ =>
        if host = "localhost".toList then return s!"127.0.0.1:{port}"
        else throw (.host BindError.unknownHost.message)

/-- The target of the entries of the program. -/
private def target : String := "stress_tester"

/-- The entry at the beginning. -/
def opening (server : String) (values : List (String × String)) : Entry :=
  ⟨.info, target, "Starting Modbus stress test",
    [("server", .text server), ("unit_id", .number (number values "unit-id")),
      ("clients", .number (number values "clients")),
      ("duration_secs", .number (number values "duration")),
      ("rate", .number (number values "rate"))]⟩

/-- The entry of a client that finds no way to the device. -/
def unreachable (client : Nat) : Entry :=
  ⟨.error, target, "Failed to connect",
    [("client_id", .number client), ("error", .text "Network is unreachable (os error 101)")]⟩

/-- The entry at the end. -/
def closing (successes failures : Nat) : Entry :=
  ⟨.info, target, "Test finished",
    [("successes", .number successes), ("failures", .number failures)]⟩

/-- Runs the checker with values for its parameters. -/
def runWith (machine : Machine) (values : List (String × String)) : Finished :=
  match resolve ((values.lookup "host").getD "") with
  | .error f => { status := 1, error := f.report, files := machine.files }
  | .ok server =>
    let clients := number values "clients"
    let entries :=
      [opening server values] ++ (List.range clients).map (fun n => unreachable (n + 1)) ++
        [closing 0 clients]
    let out := String.join (entries.map (·.line machine.time))
    if clients = 0 then { out, files := machine.files }
    else { status := 1, out, error := (Failure.checks clients).report, files := machine.files }

/-- Runs the checker with command-line arguments. -/
def run (machine : Machine) (arguments : List String) : Finished :=
  match interface.read machine.environment arguments with
  | .error why => interface.finish machine why
  | .ok values => runWith machine values

end Fieldbus.Program.Checker
