import Fieldbus.Wire.Breach
import Fieldbus.Wire.Bytes
import Fieldbus.Wire.Request

/-!
# Requests and responses as bytes

A message is a function code and a body that depends on the function.  `Request.ofBytes` reads a
request, or names the first breach met; `Request.toBytes` writes one.  Answers are written by
`answerBytes`, an exception under the function code with its highest bit set.
-/

namespace Fieldbus

/-- The most bytes that a message may have. -/
def maxMessageSize : Nat := 253

/-! ## Reading -/

/-- A reader of a body: it takes bytes off the front, or names a breach. -/
abbrev BodyReader := StateT (List UInt8) (Except Breach)

namespace BodyReader

/-- The next byte. -/
def byte : BodyReader UInt8 := fun
  | b :: rest => .ok (b, rest)
  | [] => .error .missingBytes

/-- The next word. -/
def word : BodyReader UInt16 := fun
  | high :: low :: rest => .ok (wordOf high low, rest)
  | _ => .error .missingBytes

/-- The next `count` words. -/
def words : Nat → BodyReader (List UInt16)
  | 0 => return []
  | count + 1 => do
    let w ← word
    return w :: (← words count)

/-- The next word as the value of a coil. -/
def coil : BodyReader Bool := do
  let w ← word
  if w = 0xFF00 then return true
  else if w = 0 then return false
  else throw .coilValue

/-- The next `count` bytes as `quantity` coils.  Bits after the last coil are not looked at. -/
def coils (quantity : UInt16) (count : UInt8) : BodyReader (List Bool) := fun body =>
  if body.length < count.toNat then .error .missingCoilBytes
  else
    let bits := unpackBits (body.take count.toNat)
    if bits.length < quantity.toNat then .error .missingCoilBits
    else .ok (bits.take quantity.toNat, body.drop count.toNat)

/-- A count of bytes, then that many as `quantity` words.  The count is compared in 16 bits. -/
def countedWords (quantity : UInt16) (breach : Breach) : BodyReader (List UInt16) := do
  let count ← byte
  if quantity * 2 = count.toUInt16 then words quantity.toNat else throw breach

/-- All bytes that are left. -/
def rest : BodyReader (List UInt8) := fun body => .ok (body, [])

/-- The body of a function that a device or a client knows by its code. -/
def request (code : UInt8) : BodyReader Request := do
  match code with
  | 0x01 => return .readCoils (← word) (← word)
  | 0x02 => return .readDiscreteInputs (← word) (← word)
  | 0x03 => return .readHoldingRegisters (← word) (← word)
  | 0x04 => return .readInputRegisters (← word) (← word)
  | 0x05 => return .writeSingleCoil (← word) (← coil)
  | 0x06 => return .writeSingleRegister (← word) (← word)
  | 0x0F =>
    let start ← word
    let quantity ← word
    let count ← byte
    return .writeMultipleCoils start (← coils quantity count)
  | 0x10 =>
    let start ← word
    let quantity ← word
    return .writeMultipleRegisters start (← countedWords quantity .wordCount)
  | 0x11 => return .reportServerId
  | 0x16 => return .maskWriteRegister (← word) (← word) (← word)
  | 0x17 =>
    let readStart ← word
    let readQuantity ← word
    let writeStart ← word
    let writeQuantity ← word
    return .readWriteMultipleRegisters readStart readQuantity writeStart
      (← countedWords writeQuantity .writeWordCount)
  | _ => if code < 0x80 then return .custom code (← rest) else throw (.functionCode code)

end BodyReader

namespace Request

/-- The functions whose length is looked at before anything else. -/
def lengthLimited (code : UInt8) : Bool :=
  code = 0x0F || code = 0x10 || code = 0x17

/-- Reads a request, all of it. -/
def ofBytes : List UInt8 → Except Breach Request
  | [] => .error .missingBytes
  | code :: body =>
    if lengthLimited code ∧ maxMessageSize ≤ body.length then .error .requestTooLong
    else
      match BodyReader.request code body with
      | .error breach => .error breach
      | .ok (request, []) => .ok request
      | .ok (_, _ :: _) => .error .surplusBytes

/-! ## Writing -/

/-- The word that stands for the value of a coil. -/
def coilWord (value : Bool) : UInt16 := if value then 0xFF00 else 0

/-- Words after the count of their bytes. -/
def countedWordsBytes (words : List UInt16) : List UInt8 :=
  (2 * words.length).toUInt8 :: wordsBytes words

/-- Coils after the count of their bytes. -/
def countedBitsBytes (bits : List Bool) : List UInt8 :=
  (packBits bits).length.toUInt8 :: packBits bits

/-- The bytes after the function code. -/
def body : Request → List UInt8
  | .readCoils start quantity | .readDiscreteInputs start quantity
  | .readHoldingRegisters start quantity | .readInputRegisters start quantity =>
    wordsBytes [start, quantity]
  | .writeSingleCoil address value => wordsBytes [address, coilWord value]
  | .writeSingleRegister address value => wordsBytes [address, value]
  | .writeMultipleCoils start values =>
    wordsBytes [start, values.length.toUInt16] ++ countedBitsBytes values
  | .writeMultipleRegisters start values =>
    wordsBytes [start, values.length.toUInt16] ++ countedWordsBytes values
  | .readWriteMultipleRegisters readStart readQuantity writeStart values =>
    wordsBytes [readStart, readQuantity, writeStart, values.length.toUInt16] ++
      countedWordsBytes values
  | .maskWriteRegister address andMask orMask => wordsBytes [address, andMask, orMask]
  | .reportServerId => []
  | .custom _ data => data

/-- The bytes of a request. -/
def toBytes (r : Request) : List UInt8 := r.functionCode :: r.body

end Request

namespace Response

/-- The bytes after the function code. -/
def body : Response → List UInt8
  | .readCoils values | .readDiscreteInputs values => Request.countedBitsBytes values
  | .readHoldingRegisters values | .readInputRegisters values
  | .readWriteMultipleRegisters values => Request.countedWordsBytes values
  | .writeSingleCoil address value => wordsBytes [address, Request.coilWord value]
  | .writeSingleRegister address value => wordsBytes [address, value]
  | .writeMultipleCoils start quantity | .writeMultipleRegisters start quantity =>
    wordsBytes [start, quantity]

/-- The bytes of a response. -/
def toBytes (r : Response) : List UInt8 := r.functionCode :: r.body

end Response

/-- The bytes of the answer to a request, or a breach if they are too many. -/
def answerBytes (request : Request) : Except ExceptionCode Response → Except Breach (List UInt8)
  | .error code => .ok [request.functionCode + 0x80, code.toByte]
  | .ok response =>
    if maxMessageSize < response.toBytes.length then .error .responseTooLong
    else .ok response.toBytes

end Fieldbus
