import Fieldbus.Supervisor.Stage

/-!
# The lifecycle in a world

The supervisor of a world lives on a stage on which time is counted: its waits let time pass, its
transport behaves as the plan says, and its loops tick at their instants.
-/

namespace Fieldbus

namespace World

/-! ## What takes time -/

/-- Waits for a span of time unless there is none; answers whether the token fired meanwhile. -/
def pause (span : Nat) : Process World Bool := do
  if span = 0 then return false
  else sleepUnlessFired ((← get).now + span)

/-- The transport is told to start. -/
def callStart : Process World Attempt := do
  modify called
  let w ← get
  if ← pause w.plan.transport.startDelay then return .cancelled
  else if w.starts ≤ w.plan.transport.failures then
    return .failed (w.plan.transport.errorOf w.starts)
  else
    Process.reportAll w.plan.transport.upEvents
    return .up

/-- Waits for the transport, which was told to stop, and for the loops, until the deadline.  Answers
whether both were done in time; a stop that is cut off never completes.  Without any time at all, a
stop that takes none still completes, but loops that have not ended are not waited for. -/
def drain : Process World Bool := do
  let w ← get
  let stopDelay := w.plan.transport.stopDelay
  let timeout := w.plan.shutdownTimeout
  if stopDelay = 0 then
    completeStop
    joinLoops
    if w.loops = [] then return true
    else if timeout = 0 then return false
    else
      turn
      joinLoops
      return true
  else if timeout = 0 then return false
  else
    turn
    passUntil (w.now + min stopDelay timeout)
    if stopDelay ≤ timeout then
      completeStop
      joinLoops
      return true
    else return false

/-! ## The lifecycle -/

/-- The stage on which time is counted. -/
def stage : Stage (Process World) where
  act p := p
  pause := pause
  callStart := callStart
  spawnLoops := modify spawnLoops
  awaitToken := awaitToken
  drain := drain

/-- One attempt to start the transport. -/
def attemptStart (attempt : Nat) : Process World Attempt :=
  stage.attemptStart attempt

/-- Makes attempts from the number `attempt` on, with `retries` more after it. -/
def attempts (attempt retries : Nat) : Process World (Except SupervisorError Unit) :=
  stage.attempts attempt retries

/-- Brings the transport up and spawns the loops. -/
def start : Process World (Except SupervisorError Unit) :=
  stage.start

/-- Shuts a running device down. -/
def shutdown : Process World (Except SupervisorError Unit) :=
  stage.shutdown

/-- Starts, waits for the token, and shuts down. -/
def runToEnd : Process World (Except SupervisorError Unit) :=
  stage.runToEnd

end World

end Fieldbus
