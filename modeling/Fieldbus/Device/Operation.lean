import Fieldbus.Device.Service

/-!
# Runs of operations

Everything that can be done to a device is one of the operations below.  `Device.run` carries out a
list of them on one device after the other and keeps what each answered and what was reported.
-/

namespace Fieldbus

/-- Something that can be done to a device: an access from inside the program, one on behalf of a
client, a decoded request, a step of the counter, or a look at it. -/
inductive Operation where
  | access (k : TableKind) (unitId : UInt8) (access : Access k)
  | handle (k : TableKind) (unitId : UInt8) (access : Access k)
  | serve (unitId : UInt8) (request : Request)
  | increment
  | counter

/-- What an operation answers. -/
inductive Answer where
  | cells (k : TableKind) (result : Except Refusal (List k.Cell))
  | response (result : Except ExceptionCode Response)
  | counter (value : UInt16)

namespace Device

/-- Carries out one operation. -/
def apply (d : Device) : Operation → Outcome Device Answer
  | .access k unitId a => (d.access unitId a).map (.cells k)
  | .handle k unitId a => (d.handle unitId a).map (.cells k)
  | .serve unitId request => (d.serve unitId request).map .response
  | .increment => d.increment.map .counter
  | .counter => { answer := .counter d.counter, state := d }

/-- Carries out operations one after the other. -/
def run (d : Device) : List Operation → Outcome Device (List Answer)
  | [] => { answer := [], state := d }
  | op :: ops =>
    let first := d.apply op
    let rest := first.state.run ops
    { rest with
      answer := first.answer :: rest.answer
      events := first.events ++ rest.events }

end Device

end Fieldbus
