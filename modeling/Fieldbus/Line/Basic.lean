import Fieldbus.Line.Pipe

/-!
# Lines

A line joins the device to a client by two pipes.  The near end belongs to the device: its reads
fail once the client has been silent for too long, and find nothing more once the shutdown token has
fired.  The far end follows a schedule, and after its last event reads until the near end stops
writing.

Time is counted in milliseconds.  It passes only while the near end waits; the near end goes on at
the instant that it waited for before the far end takes its turn.
-/

namespace Fieldbus

/-- What the far end does: it writes bytes, waiting for room; it stops writing; it fires the
shutdown token; or it lets the line go without having read anything. -/
inductive PeerAction where
  | write (bytes : List UInt8)
  | close
  | cancel
  | drop
  deriving DecidableEq, Repr

/-- An action and the instant before which it does not happen. -/
structure PeerEvent where
  instant : Nat
  action : PeerAction
  deriving DecidableEq, Repr

/-- A line, seen from outside.  `deadline` is the instant at which a read that still waits fails;
`received` is what the far end has read; `schedule` is what it has still to do.  The far end reads
nothing before the last event of its schedule is over: what the near end writes until then stays in
`outbound`, whose capacity decides which writes wait. -/
structure Line where
  idleTimeout : Nat
  deadline : Nat := idleTimeout
  now : Nat := 0
  fired : Bool := false
  inbound : Pipe
  outbound : Pipe
  schedule : List PeerEvent := []
  received : List UInt8 := []
  deriving DecidableEq, Repr

namespace Line

/-! ## The far end -/

/-- One action of the far end; what is left of a write that does not fit is answered. -/
def act (line : Line) : PeerAction → Line × List UInt8
  | .write bytes =>
    if line.inbound.closed then (line, [])
    else
      ({ line with inbound := line.inbound.push bytes }, bytes.drop line.inbound.room)
  | .close => ({ line with inbound := line.inbound.close }, [])
  | .cancel => ({ line with fired := true }, [])
  | .drop =>
    ({ line with inbound := line.inbound.close, outbound := line.outbound.close.drained }, [])

/-- The far end reads all that the near end wrote, and lets the line go when the near end has
stopped writing. -/
def drain (line : Line) : Line :=
  { line with
    received := line.received ++ line.outbound.held
    outbound := line.outbound.drained
    inbound := if line.outbound.closed then line.inbound.close else line.inbound }

/-- The far end does what is due: actions whose instant has come, until a write does not fit, and
reading after the last. -/
def peerTurn (line : Line) : Line :=
  go line line.schedule
where
  /-- The turn on a schedule that stands for the one of the line. -/
  go (line : Line) : List PeerEvent → Line
    | [] => { line with schedule := [] }.drain
    | event :: schedule =>
      if line.now < event.instant then { line with schedule := event :: schedule }
      else
        match line.act event.action with
        | (line, []) => go line schedule
        | (line, rest) => { line with schedule := { event with action := .write rest } :: schedule }

/-! ## Waiting -/

/-- The instants after now and before `limit` at which the far end has something to do. -/
def instants (line : Line) (limit : Option Nat) : List Nat :=
  (line.schedule.map (·.instant)).filter fun t =>
    line.now < t ∧ ∀ l ∈ limit, t < l

/-- The near end waits until `ready` holds, while the far end takes its turns now and at the
instants ahead.  Answers whether it came to hold. -/
def await (ready : Line → Bool) (line : Line) : List Nat → Bool × Line
  | [] =>
    let line := line.peerTurn
    (ready line, line)
  | instant :: later =>
    let line := line.peerTurn
    if ready line then (true, line) else await ready { line with now := instant } later

/-! ## The near end -/

/-- Why an operation of the near end fails: the client was silent for too long, nobody reads any
more, or there is no room and none will come. -/
inductive LineError where
  | timedOut
  | brokenPipe
  | wouldBlock
  deriving DecidableEq, Repr

/-- The wording of the failure. -/
def LineError.message : LineError → String
  | timedOut => "client idle timeout"
  | brokenPipe => "broken pipe"
  | wouldBlock => "operation would block"

/-- What an operation of the near end answers. -/
inductive LineAnswer where
  | read (bytes : List UInt8)
  | wrote (count : Nat)
  | done
  | failed (reason : LineError)
  deriving DecidableEq, Repr

/-- A read of at most `n` bytes that need not wait: nothing once the token has fired, otherwise what
is there, which moves the deadline. -/
def take (line : Line) (n : Nat) : LineAnswer × Line :=
  if line.fired then (.read [], line)
  else
    let (bytes, inbound) := line.inbound.pop n
    let deadline := if bytes = [] then line.deadline else line.now + line.idleTimeout
    (.read bytes, { line with inbound, deadline })

/-- Reads at most `n` bytes.  The read waits while there are none and none are excluded, and fails
at the deadline, or at once if that has passed. -/
def read (line : Line) (n : Nat) : LineAnswer × Line :=
  let ready (line : Line) : Bool := line.fired ∨ n = 0 ∨ line.inbound.Readable
  if ready line then line.take n
  else if line.deadline ≤ line.now then (.failed .timedOut, line)
  else
    match line.await ready (line.instants (some line.deadline)) with
    | (true, line) => line.take n
    | (false, line) => (.failed .timedOut, { line with now := line.deadline })

/-- A write that need not wait: as many of the bytes as fit. -/
def put (line : Line) (bytes : List UInt8) : LineAnswer × Line :=
  if line.outbound.closed then (.failed .brokenPipe, line)
  else
    (.wrote (min bytes.length line.outbound.room),
      { line with outbound := line.outbound.push bytes })

/-- Writes as many of the bytes as fit, and waits while none does. -/
def write (line : Line) (bytes : List UInt8) : LineAnswer × Line :=
  let ready (line : Line) : Bool :=
    line.outbound.closed ∨ bytes = [] ∨ 0 < line.outbound.room
  if ready line then line.put bytes
  else
    match line.await ready (line.instants none) with
    | (true, line) => line.put bytes
    | (false, line) => (.failed .wouldBlock, line)

/-- Stops writing. -/
def shutdown (line : Line) : LineAnswer × Line :=
  (.done, { line with outbound := line.outbound.close })

/-- Lets a span of time pass. -/
def sleep (line : Line) (span : Nat) : LineAnswer × Line :=
  if span = 0 then (.done, line)
  else
    let wake := line.now + span
    let (_, line) := line.await (fun _ => false) (line.instants (some wake))
    (.done, { line with now := wake })

/-- The near end lets the line go, and the far end goes through the rest of its schedule. -/
def finish (line : Line) : Line :=
  let actions := line.schedule.map fun event => { event with instant := 0 }
  { line with
    inbound := line.inbound.close
    outbound := line.outbound.close
    schedule := actions }.peerTurn

/-- An operation of the near end. -/
inductive LineStep where
  | read (n : Nat)
  | write (bytes : List UInt8)
  | flush
  | shutdown
  | sleep (milliseconds : Nat)
  deriving DecidableEq, Repr

/-- Carries out an operation of the near end. -/
def step (line : Line) : LineStep → LineAnswer × Line
  | .read n => line.read n
  | .write bytes => line.write bytes
  | .flush => (.done, line)
  | .shutdown => line.shutdown
  | .sleep span => line.sleep span

end Line

end Fieldbus
