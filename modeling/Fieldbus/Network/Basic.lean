import Fieldbus.Network.Address
import Fieldbus.Wire.Connection

/-!
# The network side of a device

Clients reach a device through a listener, which serves a bounded number of them at a time: each
connection that it accepts takes one of its slots until it ends.  A new listener replaces the one
before and has slots of its own, while the connections of the old one stay; one that cannot be bound
replaces nothing.  A stop ends all connections, those that are accepted after it included.
-/

namespace Fieldbus

/-- The client's end of a connection and what the device keeps for it.  `kept` are bytes that have
arrived and begin a frame; `sent` are answers that the client has not read; a connection that is not
live has been ended by the device. -/
structure Connection where
  peer : String
  listener : Nat
  live : Bool
  kept : List UInt8 := []
  sent : List UInt8 := []
  deriving DecidableEq, Repr

/-- A device and those who can talk to it.  Listeners are numbered from one; `listener` is the
number of the last one, `localAddress` the address that it was bound to, and `freeSlots` are the
slots that it has left.  `reachable` tells whether clients find a way to the address at all. -/
structure Network where
  device : Device
  localAddress : Option String := none
  maxClients : Nat := 4
  reachable : Bool := true
  listener : Nat := 0
  listening : Bool := false
  stopped : Bool := false
  freeSlots : Nat := 0
  connections : List Connection := []

namespace Network

open Process

/-! ## Views -/

/-- A listener has been bound, though it may have been stopped since. -/
def Bound (n : Network) : Prop := n.localAddress.isSome = true

instance (n : Network) : Decidable n.Bound := inferInstanceAs (Decidable (_ = _))

/-- The connection of a client. -/
def find? (n : Network) (peer : String) : Option Connection :=
  n.connections.find? (·.peer = peer)

/-- Puts a connection in the place of the one that its client had. -/
def put (n : Network) (c : Connection) : Network :=
  { n with connections := c :: n.connections.filter (·.peer ≠ c.peer) }

/-- Forgets the connection of a client. -/
def forget (n : Network) (peer : String) : Network :=
  { n with connections := n.connections.filter (·.peer ≠ peer) }

/-! ## Connections -/

/-- Serves the bytes that have arrived on a connection. -/
def serveBytes (bytes : List UInt8) : Process Network Served :=
  within device (fun n device => { n with device }) (·.serveBytes bytes)

/-- The device ends a connection, whose slot is free again if the last listener gave it.  The reason
is reported, if there is one to tell. -/
def settle (c : Connection) (reason : Option String) : Process Network Connection := do
  modify fun n => if c.listener = n.listener then { n with freeSlots := n.freeSlots + 1 } else n
  report (.clientDisconnected c.peer)
  match reason with
  | some reason => report (.connectionFailed reason)
  | none => pure ()
  return { c with live := false, kept := [] }

/-- Bytes arrive on a connection.  The first breach ends it. -/
def feed (bytes : List UInt8) (c : Connection) : Process Network Connection := do
  if c.live then
    let served ← serveBytes (c.kept ++ bytes)
    let c := { c with kept := served.kept, sent := c.sent ++ served.sent }
    match served.breach with
    | some breach => settle c breach.message?
    | none => return c
  else return c

/-- No more bytes arrive on a connection.  The beginning of a frame is a breach. -/
def hangUp (c : Connection) : Process Network Connection :=
  if c.live then settle c (if c.kept = [] then none else Breach.cutOff.message?)
  else return c

/-- No more bytes arrive on any of the connections. -/
def hangUpAll : List Connection → Process Network (List Connection)
  | [] => return []
  | c :: cs => do
    let c ← hangUp c
    let cs ← hangUpAll cs
    return c :: cs

/-! ## Listeners -/

/-- Begins to listen, where `bound` is the address that a new listener has been bound to, or why it
could not be bound.  All slots of the new listener are free. -/
def start (bound : Except BindError String) : Process Network (Except BindError Unit) := do
  match bound with
  | .error e => return .error e
  | .ok address =>
    let n ← get
    report (.listenerBound address n.maxClients)
    set
      { n with
        localAddress := some address
        listener := n.listener + 1
        listening := true
        freeSlots := n.maxClients }
    return .ok ()

/-- Ends the listener and all connections, now and for good. -/
def stop : Process Network Unit := do
  let n ← get
  set { n with stopped := true, listening := false }
  let connections ← hangUpAll n.connections
  modify fun n => { n with connections }
  if n.listening then report .listenerStopped

/-- Why a client has no connection. -/
inductive ConnectError where
  | refused
  | unreachable
  deriving DecidableEq, Repr

/-- The last listener takes a client in if it has a slot left. -/
def takeIn (peer : String) : Process Network Connection := do
  let n ← get
  match n.freeSlots with
  | 0 =>
    report (.clientRefused peer)
    return { peer, listener := n.listener, live := false }
  | slots + 1 =>
    report (.clientConnected peer)
    set { n with freeSlots := slots }
    let c : Connection := { peer, listener := n.listener, live := true }
    if n.stopped then hangUp c else return c

/-- The client `peer` connects, which answers whether it has been taken in.  It lets go of the
connection that it had. -/
def connect (peer : String) : Process Network (Except ConnectError Bool) := do
  let n ← get
  if ¬ n.reachable then return .error .unreachable
  else if ¬ n.listening then return .error .refused
  else
    let c ← takeIn peer
    match n.find? peer with
    | some earlier => discard (hangUp earlier)
    | none => pure ()
    modify (·.put c)
    return .ok (decide (0 < n.freeSlots))

end Network

end Fieldbus
