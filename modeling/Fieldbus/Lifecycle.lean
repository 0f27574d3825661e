/-!
# Lifecycle states

A device is brought up, runs, is drained and stops.  `Lifecycle.Next` lists the steps between the
states that can occur.
-/

namespace Fieldbus

/-- How far a device has got in its life. -/
inductive Lifecycle where
  | idle
  | starting
  | running
  | draining
  | stopped
  deriving DecidableEq, Repr

namespace Lifecycle

/-- The name of the state in the journal. -/
def name : Lifecycle → String
  | .idle => "Idle"
  | .starting => "Starting"
  | .running => "Running"
  | .draining => "Draining"
  | .stopped => "Stopped"

/-- `Next s t` holds when `t` may follow `s`.  A device at rest may be started; a start ends in
running or stopped; only a running device is drained, and draining ends in stopped; stopping a
device that does not run leaves it stopped. -/
inductive Next : Lifecycle → Lifecycle → Prop where
  | start {s : Lifecycle} : s = .idle ∨ s = .running ∨ s = .stopped → Next s .starting
  | succeed : Next .starting .running
  | abandon : Next .starting .stopped
  | drain : Next .running .draining
  | finish : Next .draining .stopped
  | settle {s : Lifecycle} : s = .idle ∨ s = .stopped → Next s .stopped

end Lifecycle

end Fieldbus
