import Fieldbus.Supervisor.World

/-!
# Stages

A supervisor starts a device, waits for the token, and shuts the device down.  What takes no time is
carried out on a world at once.  What takes time is to wait, to tell the transport to start, and to
see it stop and the loops end; how that is done depends on where the supervisor lives.  A `Stage` is
such a place, and the lifecycle is the same on every stage.
-/

namespace Fieldbus

namespace SupervisorError

/-- The wording of the error. -/
def message : SupervisorError → String
  | startFailed attempts reason =>
    s!"transport failed to start after {attempts} attempt(s): {reason}"
  | cancelled => "startup cancelled"
  | shutdownTimeout milliseconds =>
    s!"background tasks still running after {durationText milliseconds} shutdown deadline"

end SupervisorError

namespace World

/-! ## What takes no time -/

/-- Moves to another lifecycle state. -/
def moveTo (phase : Lifecycle) : Process World Unit := do
  Process.report (.transition (← get).phase phase)
  modify fun w => { w with phase }

/-- Reports that an attempt to start the transport begins. -/
def announce (attempt : Nat) : Process World Unit := do
  let limit := (← get).plan.retry.maxAttempts
  Process.reportAll
    ((if 1 < attempt then [.startRetried attempt limit] else []) ++ [.startAttempted attempt])

/-- How an attempt to start the transport ends; one that fails does so with an error. -/
inductive Attempt where
  | up
  | failed (reason : String)
  | cancelled
  deriving DecidableEq, Repr

/-- The report of how an attempt has ended. -/
def Attempt.events (attempt : Nat) : Attempt → List Event
  | .failed reason => [.startFailed reason attempt]
  | .up | .cancelled => []

/-- The transport is told to start. -/
def called (w : World) : World :=
  { w with starts := w.starts + 1 }

/-- The transport is told to stop. -/
def callStop (w : World) : World :=
  { w with stopCalls := w.stopCalls + 1 }

/-- Begins to drain the device. -/
def goDown : Process World Unit := do
  moveTo .draining
  Process.report .stopping
  modify fire
  modify callStop

/-- Spawns the counter loop and the health loop. -/
def spawnLoops (w : World) : World :=
  { w with
    loops := w.loops ++
      [.spawn .counter w.plan.counterPeriod w.now, .spawn .health w.plan.healthPeriod w.now] }

/-- A stop of the transport is complete. -/
def completeStop : Process World Unit := do
  modify fun w => { w with stops := w.stops + 1 }
  Process.reportAll (← get).plan.transport.downEvents

/-- The supervisor has waited for loops that have ended, and reports those of them that have
failed. -/
def joinLoops : Process World Unit := do
  Process.reportAll ((← get).failed.map fun _ => .taskFailed)
  modify fun w => { w with failed := [] }

/-- Leaves the loops to end on their own; nobody is going to wait for those that have failed. -/
def detachLoops (w : World) : World :=
  { w with loops := [], detached := w.detached ++ w.loops, failed := [] }

/-- Gives the supervisor up; loops that it still has to itself are aborted with it. -/
def release (w : World) : World :=
  { w with released := true, loops := [], failed := [] }

end World

/-! ## The lifecycle -/

open World

/-- Where a supervisor lives.  `act` carries out at once what takes no time.  `pause` waits for a
span of time and answers whether the token fired meanwhile; `callStart` tells the transport to
start; `drain` waits for the transport, which was told to stop, and for the loops, and answers
whether both were done before the deadline. -/
structure Stage (m : Type → Type) where
  act {α : Type} : Process World α → m α
  pause (span : Nat) : m Bool
  callStart : m World.Attempt
  spawnLoops : m Unit
  awaitToken : m Unit
  drain : m Bool

namespace Stage

variable {m : Type → Type} [Monad m] (stage : Stage m)

/-- One attempt to start the transport. -/
def attemptStart (attempt : Nat) : m World.Attempt := do
  stage.act (announce attempt)
  let ending ← stage.callStart
  stage.act (Process.reportAll (ending.events attempt))
  return ending

/-- Makes attempts from the number `attempt` on, with `retries` more after it. -/
def attempts (attempt : Nat) : (retries : Nat) → m (Except SupervisorError Unit)
  | 0 => do
    match ← stage.attemptStart attempt with
    | .up => return .ok ()
    | .cancelled => return .error .cancelled
    | .failed reason => return .error (.startFailed attempt reason)
  | retries + 1 => do
    match ← stage.attemptStart attempt with
    | .up => return .ok ()
    | .cancelled => return .error .cancelled
    | .failed _ =>
      if ← stage.pause (← stage.act get).plan.retry.delay then return .error .cancelled
      else attempts (attempt + 1) retries

/-- Brings the transport up, with as many attempts as the policy allows, and spawns the loops.  A
token that has fired cancels the start before its first attempt, one that fires meanwhile at
once. -/
def start : m (Except SupervisorError Unit) := do
  stage.act (moveTo .starting)
  let w ← stage.act get
  let result ← if w.fired then pure (.error .cancelled) else stage.attempts 1 w.plan.retry.retries
  match result with
  | .error e =>
    stage.act (moveTo .stopped)
    return .error e
  | .ok () =>
    stage.spawnLoops
    stage.act (moveTo .running)
    stage.act (Process.report .started)
    return .ok ()

/-- Shuts a running device down: fires the token, stops the transport and waits for the loops, all
within a deadline.  A device that does not run is only marked as stopped. -/
def shutdown : m (Except SupervisorError Unit) := do
  let w ← stage.act get
  if w.phase = .idle ∨ w.phase = .stopped then
    stage.act (moveTo .stopped)
    return .ok ()
  else
    stage.act goDown
    let drained ← stage.drain
    stage.act (moveTo .stopped)
    if drained then
      stage.act (Process.report .tasksStopped)
      return .ok ()
    else
      stage.act (modify detachLoops)
      stage.act (Process.report (.shutdownTimeout w.plan.shutdownTimeout))
      return .error (.shutdownTimeout w.plan.shutdownTimeout)

/-- Starts, waits for the token, and shuts down. -/
def runToEnd : m (Except SupervisorError Unit) := do
  let result ← stage.start
  let result ← match result with
    | .error e => pure (.error e)
    | .ok () => do
      stage.awaitToken
      stage.shutdown
  stage.act (modify release)
  return result

end Stage

end Fieldbus
