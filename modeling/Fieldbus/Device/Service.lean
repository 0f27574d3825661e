import Fieldbus.Device.Access

/-!
# Serving requests

A decoded request is carried out by accesses to the tables: one, or a write and then a read for the
function that does both.  A refused access becomes an exception.  Functions that no table backs and
lists too long to be counted in 16 bits are turned down before any access.
-/

namespace Fieldbus

namespace Device

/-- The most items that a request may write, since a response counts them in 16 bits. -/
def maxWriteQuantity : Nat := 65535

/-- Handled accesses as the answer to a request: a refusal becomes an exception. -/
def reply {α : Type} (o : Outcome Device (Except Refusal α)) (response : α → Response) :
    Outcome Device (Except ExceptionCode Response) :=
  o.map fun
    | .error refusal => .error refusal.exceptionCode
    | .ok cells => .ok (response cells)

/-- A request that is turned down before any access. -/
def decline (d : Device) (code : ExceptionCode) (events : List Event) :
    Outcome Device (Except ExceptionCode Response) :=
  { answer := .error code
    state := d
    events }

/-- Answers a request for the unit `unitId`. -/
def serve (d : Device) (unitId : UInt8) (request : Request) :
    Outcome Device (Except ExceptionCode Response) :=
  match request with
  | .readCoils start quantity =>
    reply (d.handle unitId (k := .coil) (.read start quantity)) .readCoils
  | .readDiscreteInputs start quantity =>
    reply (d.handle unitId (k := .discrete) (.read start quantity)) .readDiscreteInputs
  | .readHoldingRegisters start quantity =>
    reply (d.handle unitId (k := .holding) (.read start quantity)) .readHoldingRegisters
  | .readInputRegisters start quantity =>
    reply (d.handle unitId (k := .input) (.read start quantity)) .readInputRegisters
  | .writeSingleCoil address value =>
    reply (d.handle unitId (k := .coil) (.write (by decide) address [value]))
      fun _ => .writeSingleCoil address value
  | .writeSingleRegister address value =>
    reply (d.handle unitId (k := .holding) (.write (by decide) address [value]))
      fun _ => .writeSingleRegister address value
  | .writeMultipleCoils start values =>
    if maxWriteQuantity < values.length then d.decline .illegalDataValue []
    else
      reply (d.handle unitId (k := .coil) (.write (by decide) start values))
        fun _ => .writeMultipleCoils start values.length.toUInt16
  | .writeMultipleRegisters start values =>
    if maxWriteQuantity < values.length then d.decline .illegalDataValue []
    else
      reply (d.handle unitId (k := .holding) (.write (by decide) start values))
        fun _ => .writeMultipleRegisters start values.length.toUInt16
  | .readWriteMultipleRegisters readStart readQuantity writeStart values =>
    reply
      ((d.handle unitId (k := .holding) (.write (by decide) writeStart values)).andTry
        fun _ d => d.handle unitId (k := .holding) (.read readStart readQuantity))
      .readWriteMultipleRegisters
  | .maskWriteRegister .. | .reportServerId | .custom .. =>
    d.decline .illegalFunction [.unsupportedFunction unitId request]

end Device

end Fieldbus
