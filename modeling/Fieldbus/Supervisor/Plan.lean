import Fieldbus.Journal.Event

/-!
# Plans

What a supervisor is told before it begins, and how the transport under it behaves.  All spans of
time are in milliseconds.
-/

namespace Fieldbus

/-- How often to try to bring the transport up, and how long to wait between two attempts.  There is
no wait before the first, which is always made. -/
structure RetryPolicy where
  maxAttempts : Nat := 1
  delay : Nat := 1000
  deriving DecidableEq, Repr

namespace RetryPolicy

/-- The number of attempts after the first. -/
def retries (p : RetryPolicy) : Nat := p.maxAttempts - 1

/-- The waits between attempts, the first `count` of them. -/
def delays (p : RetryPolicy) (count : Nat) : List Nat :=
  List.replicate (min count p.retries) p.delay

end RetryPolicy

/-- A transport that fails its first `failures` starts, takes `startDelay` for each start and
`stopDelay` for each stop, and reports `upEvents` when it is up and `downEvents` when it has
stopped.  Each of the first starts has an error of its own in `messages`, and those after them fail
with `message`. -/
structure TransportPlan where
  failures : Nat := 0
  message : String := "address in use"
  messages : List String := []
  startDelay : Nat := 0
  stopDelay : Nat := 0
  upEvents : List Event := []
  downEvents : List Event := []
  deriving DecidableEq, Repr

/-- The error of a start that fails, by its number; starts are numbered from one. -/
def TransportPlan.errorOf (t : TransportPlan) (number : Nat) : String :=
  t.messages.getD (number - 1) t.message

/-- The retry policy, the periods of the two loops, the time that a shutdown may take, and the
transport. -/
structure Plan where
  retry : RetryPolicy := {}
  counterPeriod : Nat := 1000
  healthPeriod : Nat := 30000
  shutdownTimeout : Nat := 5000
  transport : TransportPlan := {}
  deriving DecidableEq, Repr

/-- Why a supervisor did not do what it was asked. -/
inductive SupervisorError where
  | startFailed (attempts : Nat) (reason : String)
  | cancelled
  | shutdownTimeout (milliseconds : Nat)
  deriving DecidableEq, Repr

end Fieldbus
