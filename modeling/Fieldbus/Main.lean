import Fieldbus.Network.Script
import Fieldbus.Program.Simulator
import Std.Async.Select
import Std.Async.Signal
import Std.Async.TCP
import Std.Async.Timer
import Std.Net.Addr
import Std.Sync.CancellationToken
import Std.Time

/-!
# The simulator as a program

Reads the arguments, the environment and the settings file, writes the journal, and moves bytes
between clients and the network side of the device.  What is answered and reported is decided by the
modules above; here things are read, written and waited for.
-/

namespace Fieldbus.Live

open Std.Async
open Program

/-! ## Files -/

/-- The failure of an operation on files.  The system numbers its failures; some of its parts write
the numbers with a minus. -/
def fileError : IO.Error → Files.FileError
  | .noFileOrDirectory .. => .notFound
  | .alreadyExists .. => .alreadyExists
  | .inappropriateType _ code _ =>
    if code = 20 ∨ code = -20 then .notDirectory else .isDirectory
  | e => .system (toString e)

/-- Writes settings with the defaults, and the directories around them. -/
def createSettings (path : String) : IO Unit := do
  match Files.parent? path.toList with
  | none | some [] => pure ()
  | some around => IO.FS.createDirAll (String.ofList around)
  IO.FS.writeFile path (Settings.render {})

/-- Reads settings, or makes them with the defaults if there is no file. -/
def loadSettings (path : String) : IO (Except LoadError (Settings × Source)) := do
  match ← (IO.FS.readBinFile path).toBaseIO with
  | .ok content =>
    return (Settings.ofText path (Files.textOf content)).map fun s => (s, .file)
  | .error e =>
    match fileError e with
    | .notFound | .notDirectory =>
      match ← (createSettings path).toBaseIO with
      | .ok () => return .ok ({}, .createdDefaults)
      | .error e => return .error (.files path (fileError e))
    | reason => return .error (.files path reason)

/-! ## The journal -/

/-- The sinks of the journal that are open. -/
structure OpenSinks where
  console : Option Journal.Filter := none
  file : Option (IO.FS.Handle × Journal.Filter) := none

/-- Opens the log file and makes the directories around it. -/
def openLog (file : String) : IO (Except Failure IO.FS.Handle) := do
  let (directory, name) := Sinks.logPlace file
  let directory := String.ofList directory
  match ← (IO.FS.createDirAll directory).toBaseIO, name with
  | .error e, _ => return .error (.logDirectory directory (fileError e))
  | .ok (), none => return .error (.logName file)
  | .ok (), some name =>
    match ← (IO.FS.Handle.mk (directory ++ "/" ++ name) .append).toBaseIO with
    | .ok handle => return .ok handle
    | .error e => return .error (.logFile file (fileError e))

/-- Opens the sinks that the settings ask for. -/
def openJournal (s : LoggingSettings) : IO (Except Failure OpenSinks) := do
  let filter := Journal.Filter.choose (← IO.getEnv "RUST_LOG") s.level
  let console := if s.console then some filter else none
  if s.file = "" then return .ok { console }
  else
    return (← openLog s.file).map fun handle => { console, file := some (handle, filter) }

/-- A number in decimal digits, at least `width` of them. -/
def digits (width : Nat) (n : Int) : String :=
  let text := toString n
  String.ofList (List.replicate (width - text.length) '0') ++ text

/-- The local time of day. -/
def timeOfDay : IO String := do
  let now ← Std.Time.PlainTime.now
  return digits 2 now.hour.val ++ ":" ++ digits 2 now.minute.val ++ ":" ++ digits 2 now.second.val

/-- The date and the time in the world's common zone. -/
def timestamp : IO String := do
  let now ← Std.Time.Timestamp.now
  let now := Std.Time.PlainDateTime.ofWallTime (Std.Time.WallTime.ofTimestamp now ⟨0⟩)
  let date := digits 4 now.date.year ++ "-" ++ digits 2 now.date.month.val ++ "-" ++
    digits 2 now.date.day.val
  let time := digits 2 now.time.hour.val ++ ":" ++ digits 2 now.time.minute.val ++ ":" ++
    digits 2 now.time.second.val ++ "." ++ digits 6 (now.time.nanosecond.val / 1000)
  return date ++ "T" ++ time ++ "Z"

/-- Writes an event to the sinks that show it. -/
def OpenSinks.report (j : OpenSinks) (e : Event) : IO Unit := do
  let entry := e.entry
  match j.console with
  | some filter => if filter.shows entry then IO.print (entry.line (← timeOfDay))
  | none => pure ()
  match j.file with
  | some (handle, filter) =>
    if filter.shows entry then
      handle.putStr (entry.recordLine (← timestamp))
      handle.flush
  | none => pure ()

/-- Writes events in order. -/
def OpenSinks.reportAll (j : OpenSinks) (events : List Event) : IO Unit :=
  events.forM j.report

/-! ## What runs -/

/-- What the tasks of a running simulator share: the world of the supervisor and the network, which
have one device, the instant from which time is counted, the token, which is fired once the world
says so, and what tells that all loops have ended. -/
structure Server where
  journal : OpenSinks
  settings : Settings
  state : IO.Ref (World × Network)
  beginning : Nat
  token : Std.CancellationToken
  ended : Std.CancellationToken

/-- Carries out a process on the world as it is now, and reports its events. -/
def Server.onWorld {α : Type} (server : Server) (p : Process World α) : IO α := do
  let now := (← IO.monoMsNow) - server.beginning
  let (answer, events, fired) ← server.state.modifyGet fun (w, n) =>
    let done := p.run { w with now }
    ((done.answer, done.events, done.state.fired),
      (done.state, { n with device := done.state.device }))
  server.journal.reportAll events
  if fired then server.token.cancel
  return answer

/-- Carries out a process on the network, and reports its events. -/
def Server.onNetwork {α : Type} (server : Server) (p : Process Network α) : IO α := do
  let (answer, events) ← server.state.modifyGet fun (w, n) =>
    let done := p.run n
    ((done.answer, done.events), ({ w with device := done.state.device }, done.state))
  server.journal.reportAll events
  return answer

/-- What a task was woken by. -/
inductive Wake (α : Type) where
  | arrived (value : α)
  | elapsed
  | cancelled

/-- Waits for something to arrive, for a span of milliseconds to pass, or for the token. -/
def Server.await {α : Type} (server : Server) (source : Selector α) (span : Nat) :
    Async (Wake α) := do
  Selectable.one #[
    .case source fun value => return .arrived value,
    .case (← Selector.sleep (.ofNat span)) fun _ => return .elapsed,
    .case server.token.selector fun _ => return .cancelled]

/-! ## The network -/

/-- Serves one client until either side ends the connection. -/
partial def Server.talk (server : Server) (peer : String) (client : TCP.Socket.Client) :
    Async Unit := do
  let silence := server.settings.server.timeout.toNat * 1000
  match ← server.await (client.recvSelector 4096) silence with
  | .arrived (some bytes) =>
    let (sent, live) ← server.onNetwork (Network.receive peer bytes.toList)
    if ¬ sent.isEmpty then client.send ⟨sent.toArray⟩
    if live then server.talk peer client
    else
      discard (server.onNetwork (Network.close peer))
      client.shutdown
  | .arrived none | .cancelled =>
    discard (server.onNetwork (Network.close peer))
    client.shutdown
  | .elapsed =>
    server.onNetwork (Network.expire peer)
    discard (server.onNetwork (Network.close peer))
    client.shutdown

/-- The text of an address. -/
def addressText : Std.Net.SocketAddress → String
  | .v4 a => toString a.addr ++ ":" ++ toString a.port.toNat
  | .v6 a => "[" ++ toString a.addr ++ "]:" ++ toString a.port.toNat

/-- Lets clients in until the token fires. -/
partial def Server.listen (server : Server) (socket : TCP.Socket.Server) : Async Unit := do
  let next ← Selectable.one #[
    .case socket.acceptSelector fun client => return some client,
    .case server.token.selector fun _ => return none]
  match next with
  | none => return
  | some client =>
    let peer := addressText (← client.getPeerName)
    match ← server.onNetwork (Network.connect peer) with
    | .ok true => background (server.talk peer client)
    | _ =>
      discard (server.onNetwork (Network.close peer))
      client.shutdown
    server.listen socket

/-- Binds a listener to the address of the settings. -/
def bind (s : ServerSettings) : IO (Except BindError TCP.Socket.Server) := do
  let host := if s.address = "localhost" then "127.0.0.1" else s.address
  match Std.Net.IPv4Addr.ofString host with
  | none => return .error .unknownHost
  | some addr =>
    let attempt : IO TCP.Socket.Server := do
      let socket ← TCP.Socket.Server.mk
      socket.bind (.v4 ⟨addr, s.port⟩)
      socket.listen 1024
      return socket
    match ← attempt.toBaseIO with
    | .ok socket => return .ok socket
    | .error (.resourceBusy ..) => return .error .inUse
    | .error (.unsupportedOperation ..) => return .error .notAvailable
    | .error e => return .error (.system (toString e))

/-! ## The lifecycle -/

/-- Waits for a span of milliseconds unless the token fires.  Answers whether it fired. -/
def Server.pause (server : Server) (span : Nat) : Async Bool := do
  if span = 0 then return false
  Selectable.one #[
    .case (← Selector.sleep (.ofNat span)) fun _ => return false,
    .case server.token.selector fun _ => return true]

/-- Binds a listener, and lets clients in from then on. -/
def Server.callStart (server : Server) : Async World.Attempt := do
  server.onWorld (modify World.called)
  match ← bind server.settings.server with
  | .error e =>
    discard (server.onNetwork (Network.start (.error e)))
    return .failed e.message
  | .ok socket =>
    discard (server.onNetwork (Network.start (.ok (addressText (← socket.getSockName)))))
    background (server.listen socket)
    return .up

/-- Gives the loops their turns until all of them have ended. -/
partial def Server.tend (server : Server) : Async Unit := do
  server.onWorld World.turn
  let (w, _) ← server.state.get
  match ((w.loops ++ w.detached).map (·.next)).min? with
  | none => server.ended.cancel
  | some instant =>
    discard (server.pause (max 1 (instant - w.now)))
    server.tend

/-- Stops the network, and waits for the loops until the deadline. -/
def Server.drain (server : Server) : Async Bool := do
  server.onNetwork Network.stop
  server.onWorld World.completeStop
  let (w, _) ← server.state.get
  let drained ← Selectable.one #[
    .case server.ended.selector fun _ => return true,
    .case (← Selector.sleep (.ofNat w.plan.shutdownTimeout)) fun _ => return false]
  if drained then server.onWorld World.joinLoops
  return drained

/-- The stage on which the clock and the network are those of the machine. -/
def Server.stage (server : Server) : Stage Async where
  act p := server.onWorld p
  pause := server.pause
  callStart := server.callStart
  spawnLoops := do
    server.onWorld (modify World.spawnLoops)
    background server.tend
  awaitToken := Selectable.one #[.case server.token.selector fun _ => return]
  drain := server.drain

/-- Fires the token at the first signal that asks the program to end. -/
def Server.watchSignals (server : Server) : Async Unit := do
  let signals : List Signal := [.sigint, .sigterm, .sigquit]
  let waiters ← signals.mapM fun s => Signal.Waiter.mk s false
  Selectable.one (waiters.toArray.map fun w => .case w.selector fun _ => return)
  server.journal.report .shutdownSignalled
  server.onWorld (modify World.fire)

/-- A server that is about to serve a device.  What the transport does is seen on the network, and is
no part of the plan. -/
def Server.ofSettings (journal : OpenSinks) (settings : Settings) (device : Device) : IO Server := do
  let plan := { Simulator.plan settings with transport := {} }
  let state ← IO.mkRef
    (({ plan, device } : World),
      ({ device, maxClients := settings.server.maxClients.toNat } : Network))
  return {
    journal, settings, state
    beginning := ← IO.monoMsNow
    token := ← Std.CancellationToken.new
    ended := ← Std.CancellationToken.new }

/-- Runs the simulator with the settings at a path. -/
def simulate (path : String) : IO (Except Failure Unit) := do
  match ← loadSettings path with
  | .error e => return .error (.load path e)
  | .ok (settings, source) =>
    match settings.validate with
    | .error e => return .error (.settings e)
    | .ok () =>
      match ← openJournal settings.logging with
      | .error f => return .error f
      | .ok journal =>
        journal.reportAll (Simulator.openingEvents path source)
        match Device.create settings.device with
        | .error e => return .error (.settings e)
        | .ok (device, events) =>
          journal.reportAll events
          let server ← Server.ofSettings journal settings device
          discard server.watchSignals.toIO
          (Simulator.serve server.stage).block

/-- The variables of the environment that the command line looks at. -/
def environment (i : Interface) : IO (List (String × String)) :=
  return ((← (i.parameters.filterMap (·.setting)).mapM fun name =>
    return (← IO.getEnv name).map fun value => (name, value)).filterMap id)

end Fieldbus.Live

open Fieldbus in
def main (arguments : List String) : IO UInt32 := do
  let environment ← Live.environment Program.Simulator.interface
  match Program.Simulator.interface.read environment arguments with
  | .error why =>
    let done := Program.Simulator.interface.finish { environment, time := "", timestamp := "" } why
    IO.print done.out
    IO.eprint done.error
    return done.status.toUInt32
  | .ok values =>
    match ← Live.simulate (Program.Simulator.settingsPath values) with
    | .ok () => return 0
    | .error f =>
      IO.eprint f.report
      return 1
