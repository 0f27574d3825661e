import Fieldbus.Supervisor.Lifecycle

/-!
# Scripts

A script is what is done to a supervisor and its device from outside, one step after the other, each
to its end.  At every step the transport may behave in another way.
-/

namespace Fieldbus

/-- One step of a script. -/
inductive SupervisorStep where
  | start
  | wait
  | shutdown
  | run
  | cancel
  | sleep (milliseconds : Nat)
  | device (operations : List Operation)

/-- What a step answers. -/
inductive StepAnswer where
  | supervisor (result : Except SupervisorError Unit)
  | device (answers : List Answer)

/-- One step of a script, and how the transport behaves while it is carried out. -/
structure Errand where
  step : SupervisorStep
  transport : TransportPlan

namespace World

/-- The world with a transport that behaves in another way from now on. -/
def withTransport (w : World) (t : TransportPlan) : World :=
  { w with plan := { w.plan with transport := t } }

/-- Carries out operations on the device. -/
def operate (operations : List Operation) : Process World (List Answer) :=
  Process.within device (fun w device => { w with device }) (·.run operations)

/-- Carries out one step. -/
def step : SupervisorStep → Process World StepAnswer
  | .start => do return .supervisor (← start)
  | .wait => do
    awaitToken
    return .supervisor (.ok ())
  | .shutdown => do return .supervisor (← shutdown)
  | .run => do return .supervisor (← runToEnd)
  | .cancel => do
    modify fire
    return .supervisor (.ok ())
  | .sleep span => do
    if span ≠ 0 then sleepUntil ((← get).now + span)
    return .supervisor (.ok ())
  | .device operations => do return .device (← operate operations)

end World

end Fieldbus
