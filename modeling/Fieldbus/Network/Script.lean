import Fieldbus.Device.Operation
import Fieldbus.Line.Basic
import Fieldbus.Network.Address
import Fieldbus.Network.Basic

/-!
# What happens on the network

A history of the network side is a list of steps: of its owner, who starts and stops listeners, of
clients, each known by its address, and of the device itself.
-/

namespace Fieldbus

/-- Something that happens.  A start finds that its listener can be bound to an address, or that it
cannot; a rival is another network that starts on the same address; an exchange sends bytes and
reads one frame; a session connects, sends bytes and closes. -/
inductive NetworkStep where
  | start (bound : Except BindError String := .ok "127.0.0.1")
  | stop
  | rival
  | connect (peer : String)
  | push (peer : String) (bytes : List UInt8)
  | exchange (peer : String) (bytes : List UInt8)
  | close (peer : String)
  | session (peer : String) (bytes : List UInt8)
  | device (operations : List Operation)

/-- What a step shows to the one who takes it. -/
inductive NetworkAnswer where
  | done
  | notBound (reason : BindError)
  | connected (result : Except Network.ConnectError Bool)
  | frame (bytes : List UInt8)
  | ended
  | silence
  | rest (bytes : List UInt8)
  | session (result : Except Network.ConnectError (Bool × List UInt8))
  | noConnection
  | device (answers : List Answer)

namespace Network

open Process

/-- Sends bytes on the connection of a client, if it has one. -/
def push (peer : String) (bytes : List UInt8) : Process Network (Option Connection) := do
  match (← get).find? peer with
  | none => return none
  | some c =>
    let c ← feed bytes c
    modify (·.put c)
    return some c

/-- Sends bytes and reads the first frame that the client has not read yet. -/
def exchange (peer : String) (bytes : List UInt8) : Process Network NetworkAnswer := do
  match ← push peer bytes with
  | none => return .noConnection
  | some c =>
    match Frame.scan c.sent with
    | .frame f rest =>
      modify (·.put { c with sent := rest })
      return .frame f.toBytes
    | _ => return if c.live then .silence else .ended

/-- Bytes arrive from a client that reads all answers at once.  Answers what it reads and whether
its connection goes on. -/
def receive (peer : String) (bytes : List UInt8) : Process Network (List UInt8 × Bool) := do
  match ← push peer bytes with
  | none => return ([], false)
  | some c =>
    modify (·.put { c with sent := [] })
    return (c.sent, c.live)

/-- The connection of a client ends because nothing has arrived on it for too long. -/
def expire (peer : String) : Process Network Unit := do
  match (← get).find? peer with
  | none => return
  | some c =>
    if c.live then
      let c ← settle c (some Line.LineError.timedOut.message)
      modify (·.put c)

/-- Ends the connection of a client, which reads all that it has not read yet. -/
def close (peer : String) : Process Network (Option (List UInt8)) := do
  match (← get).find? peer with
  | none => return none
  | some c =>
    let c ← hangUp c
    modify (·.forget peer)
    return some c.sent

/-- Connects, sends bytes and closes. -/
def session (peer : String) (bytes : List UInt8) :
    Process Network (Except ConnectError (Bool × List UInt8)) := do
  match ← connect peer with
  | .error e => return .error e
  | .ok accepted =>
    discard (push peer bytes)
    return .ok (accepted, (← close peer).getD [])

/-- Begins to listen, and shows whether that was possible. -/
def listen (bound : Except BindError String) : Process Network NetworkAnswer := do
  match ← start bound with
  | .error e => return .notBound e
  | .ok () => return .done

/-- Another network, of which nothing but its reports is seen here, begins to listen on the address
of the last listener, unless that is still taken. -/
def rival : Process Network NetworkAnswer := do
  let n ← get
  let bound := if n.listening then .error .inUse else .ok (n.localAddress.getD "127.0.0.1")
  let other := listen bound { device := n.device, maxClients := n.maxClients }
  reportAll other.events
  return other.answer

/-- Carries out operations on the device. -/
def operate (operations : List Operation) : Process Network (List Answer) :=
  within device (fun n device => { n with device }) (·.run operations)

/-- Carries out one step. -/
def step : NetworkStep → Process Network NetworkAnswer
  | .start bound => listen bound
  | .stop => do
    stop
    return .done
  | .rival => rival
  | .connect peer => return .connected (← connect peer)
  | .push peer bytes => do
    match ← push peer bytes with
    | some _ => return .done
    | none => return .noConnection
  | .exchange peer bytes => exchange peer bytes
  | .close peer => do
    match ← close peer with
    | some bytes => return .rest bytes
    | none => return .noConnection
  | .session peer bytes => return .session (← session peer bytes)
  | .device operations => return .device (← operate operations)

/-- Carries out steps one after the other. -/
def runSteps : List NetworkStep → Process Network (List NetworkAnswer)
  | [] => return []
  | s :: rest => do
    let answer ← step s
    let answers ← runSteps rest
    return answer :: answers

end Network

end Fieldbus
