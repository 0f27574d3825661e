import Fieldbus.Supervisor.Loop
import Fieldbus.Supervisor.Plan

/-!
# The world of a supervisor

The supervisor is the main task; beside it run the loops that it spawned and a cancellation that was
arranged from outside.  Time is counted in milliseconds from the beginning, and passes only while
the main task waits.  The main task goes on at the instant that it waited for before anything else
that is due then; what is due then takes its turn when the main task waits again.
-/

namespace Fieldbus

/-- Everything that a supervisor deals with.  `fired` says whether the shutdown token has fired, and
`cancelAt` when it will be fired from outside.  `starts` and `stopCalls` count the calls of the
transport, and `stops` the stops that were completed.  Loops are detached when a shutdown does not
wait for them any longer; those in `failed` have failed, and nobody has waited for them yet.  The
supervisor itself is released at the end of a whole run. -/
structure World where
  plan : Plan
  device : Device
  now : Nat := 0
  fired : Bool := false
  cancelAt : Option Nat := none
  phase : Lifecycle := .idle
  released : Bool := false
  starts : Nat := 0
  stopCalls : Nat := 0
  stops : Nat := 0
  loops : List Loop := []
  detached : List Loop := []
  failed : List Loop := []

namespace World

/-- Fires the shutdown token. -/
def fire (w : World) : World :=
  { w with fired := true, cancelAt := none }

/-- The cancellation from outside is due. -/
def CancelDue (w : World) : Prop :=
  ∃ instant ∈ w.cancelAt, instant ≤ w.now

instance (w : World) : Decidable w.CancelDue :=
  match h : w.cancelAt with
  | none => isFalse (by simp [CancelDue, h])
  | some instant =>
    if hle : instant ≤ w.now then isTrue (by simp [CancelDue, h, hle])
    else isFalse (by simpa [CancelDue, h] using hle)

/-! ## Turns of the tasks beside the main one -/

/-- A cancellation that is due fires the token. -/
def cancelTurn : Process World Unit :=
  modify fun w => if w.CancelDue then w.fire else w

/-- The report of loops that take their first turn. -/
def startEvents (loops : List Loop) : List Event :=
  loops.flatMap fun l =>
    if l.begun ∨ l.period = 0 then [] else l.task.startEvents l.period

/-- Loops take their first turn; those without a period fail, and the supervisor gets to know of its
own when it waits for them. -/
def beginTurn : Process World Unit := fun w =>
  let begun (loops : List Loop) : List Loop :=
    (loops.filter fun l => l.period ≠ 0).map fun l => { l with begun := true }
  { answer := ()
    state :=
      { w with
        loops := begun w.loops
        detached := begun w.detached
        failed := w.failed ++ w.loops.filter fun l => l.period = 0 }
    events := startEvents w.loops ++ startEvents w.detached }

/-- All loops end. -/
def endTurn : Process World Unit := fun w =>
  { answer := ()
    state := { w with loops := [], detached := [] }
    events := (w.loops ++ w.detached).map fun l => l.task.stopEvent }

/-- The loops that are due tick. -/
def tickTurn : Process World Unit := fun w =>
  let ticked := Loop.tickAll (Loop.due w.now w.loops) w.device
  { answer := ()
    state := { w with loops := Loop.advance w.now w.loops, device := ticked.state }
    events := ticked.events }

/-- Every task beside the main one takes its turn, without time passing: a cancellation that is due
fires the token, and loops begin, end once the token has fired, and tick if they are due. -/
def turn : Process World Unit := do
  cancelTurn
  beginTurn
  if (← get).fired then endTurn else tickTurn

/-! ## Time -/

/-- Time passes up to the last tick before `limit`.  The events so far are kept in reverse. -/
def elapse (limit : Nat) (w : World) (past : List Event) : World × List Event :=
  match _h : Loop.firstTick? limit w.loops with
  | none => (w, past)
  | some instant =>
    let ticked := tickTurn { w with now := instant }
    elapse limit ticked.state (ticked.events.reverse ++ past)
termination_by Loop.totalDistance limit w.loops
decreasing_by exact Loop.distance_advance_lt _h

/-- Time passes up to `limit`, with all ticks before it. -/
def passUntil (limit : Nat) : Process World Unit := fun w =>
  let (later, past) := elapse limit w []
  { answer := ()
    state := { later with now := limit }
    events := past.reverse }

/-- The main task waits until the instant `limit`, which lies ahead. -/
def sleepUntil (limit : Nat) : Process World Unit := do
  turn
  match (← get).cancelAt with
  | some instant =>
    if instant < limit then
      passUntil instant
      turn
  | none => pure ()
  passUntil limit

/-- The main task waits until the instant `limit`, which lies ahead, or until the token fires.
Answers whether the token fired. -/
def sleepUnlessFired (limit : Nat) : Process World Bool := do
  turn
  if (← get).fired then return true
  match (← get).cancelAt with
  | some instant =>
    if instant < limit then
      passUntil instant
      turn
      return true
  | none => pure ()
  passUntil limit
  return false

/-- The main task waits for the token.  A token that nobody is going to fire is not waited for. -/
def awaitToken : Process World Unit := do
  if (← get).fired then return
  turn
  if (← get).fired then return
  match (← get).cancelAt with
  | some instant =>
    passUntil instant
    turn
  | none => pure ()

end World

end Fieldbus
