/-!
# Requests, responses and exceptions

A client asks for one function of a unit; the unit answers with a response of the same function or
with an exception code.  Here they are in decoded form; `Fieldbus.Wire.Pdu` gives their bytes.
-/

namespace Fieldbus

/-- What a client asks of a unit.  The last three are functions that no table backs. -/
inductive Request where
  | readCoils (start quantity : UInt16)
  | readDiscreteInputs (start quantity : UInt16)
  | readHoldingRegisters (start quantity : UInt16)
  | readInputRegisters (start quantity : UInt16)
  | writeSingleCoil (address : UInt16) (value : Bool)
  | writeSingleRegister (address value : UInt16)
  | writeMultipleCoils (start : UInt16) (values : List Bool)
  | writeMultipleRegisters (start : UInt16) (values : List UInt16)
  | readWriteMultipleRegisters (readStart readQuantity writeStart : UInt16)
      (values : List UInt16)
  | maskWriteRegister (address andMask orMask : UInt16)
  | reportServerId
  | custom (code : UInt8) (data : List UInt8)
  deriving DecidableEq, Repr

/-- What a unit answers when it did what it was asked. -/
inductive Response where
  | readCoils (values : List Bool)
  | readDiscreteInputs (values : List Bool)
  | readHoldingRegisters (values : List UInt16)
  | readInputRegisters (values : List UInt16)
  | writeSingleCoil (address : UInt16) (value : Bool)
  | writeSingleRegister (address value : UInt16)
  | writeMultipleCoils (start quantity : UInt16)
  | writeMultipleRegisters (start quantity : UInt16)
  | readWriteMultipleRegisters (values : List UInt16)
  deriving DecidableEq, Repr

/-- Why a unit did not do what it was asked. -/
inductive ExceptionCode where
  | illegalFunction
  | illegalDataAddress
  | illegalDataValue
  deriving DecidableEq, Repr

/-- The number of the exception on the wire. -/
def ExceptionCode.toByte : ExceptionCode → UInt8
  | .illegalFunction => 1
  | .illegalDataAddress => 2
  | .illegalDataValue => 3

namespace Request

/-- The function code that the request carries on the wire. -/
def functionCode : Request → UInt8
  | .readCoils .. => 0x01
  | .readDiscreteInputs .. => 0x02
  | .readHoldingRegisters .. => 0x03
  | .readInputRegisters .. => 0x04
  | .writeSingleCoil .. => 0x05
  | .writeSingleRegister .. => 0x06
  | .writeMultipleCoils .. => 0x0F
  | .writeMultipleRegisters .. => 0x10
  | .reportServerId => 0x11
  | .maskWriteRegister .. => 0x16
  | .readWriteMultipleRegisters .. => 0x17
  | .custom code _ => code

/-- The functions that a device carries out. -/
def Supported : Request → Prop
  | .maskWriteRegister .. | .reportServerId | .custom .. => False
  | _ => True

instance (r : Request) : Decidable r.Supported := by
  cases r <;> unfold Supported <;> infer_instance

/-- Numbers in brackets, separated by a comma and a blank. -/
private def listText (items : List String) : String :=
  "[" ++ String.intercalate ", " items ++ "]"

private def bitText (b : Bool) : String := if b then "true" else "false"

private def callText (name : String) (arguments : List String) : String :=
  name ++ "(" ++ String.intercalate ", " arguments ++ ")"

/-- The request as the journal shows it: the name of the function and its arguments in brackets. -/
def text : Request → String
  | .readCoils a q => callText "ReadCoils" [s!"{a.toNat}", s!"{q.toNat}"]
  | .readDiscreteInputs a q => callText "ReadDiscreteInputs" [s!"{a.toNat}", s!"{q.toNat}"]
  | .readHoldingRegisters a q => callText "ReadHoldingRegisters" [s!"{a.toNat}", s!"{q.toNat}"]
  | .readInputRegisters a q => callText "ReadInputRegisters" [s!"{a.toNat}", s!"{q.toNat}"]
  | .writeSingleCoil a v => callText "WriteSingleCoil" [s!"{a.toNat}", bitText v]
  | .writeSingleRegister a v => callText "WriteSingleRegister" [s!"{a.toNat}", s!"{v.toNat}"]
  | .writeMultipleCoils a vs =>
    callText "WriteMultipleCoils" [s!"{a.toNat}", listText (vs.map bitText)]
  | .writeMultipleRegisters a vs =>
    callText "WriteMultipleRegisters"
      [s!"{a.toNat}", listText (vs.map fun v => s!"{v.toNat}")]
  | .readWriteMultipleRegisters r q a vs =>
    callText "ReadWriteMultipleRegisters"
      [s!"{r.toNat}", s!"{q.toNat}", s!"{a.toNat}", listText (vs.map fun v => s!"{v.toNat}")]
  | .maskWriteRegister a m o =>
    callText "MaskWriteRegister" [s!"{a.toNat}", s!"{m.toNat}", s!"{o.toNat}"]
  | .reportServerId => "ReportServerId"
  | .custom code data =>
    callText "Custom" [s!"{code.toNat}", listText (data.map fun b => s!"{b.toNat}")]

end Request

namespace Response

/-- The function code that the response carries on the wire. -/
def functionCode : Response → UInt8
  | .readCoils .. => 0x01
  | .readDiscreteInputs .. => 0x02
  | .readHoldingRegisters .. => 0x03
  | .readInputRegisters .. => 0x04
  | .writeSingleCoil .. => 0x05
  | .writeSingleRegister .. => 0x06
  | .writeMultipleCoils .. => 0x0F
  | .writeMultipleRegisters .. => 0x10
  | .readWriteMultipleRegisters .. => 0x17

end Response

end Fieldbus
