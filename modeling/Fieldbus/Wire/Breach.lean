/-!
# Breaches

What a client may send that ends its connection without a response, and the wording of it.  A list
of bits that is too short for its quantity ends the connection silently.
-/

namespace Fieldbus

/-- A breach of the rules of the wire. -/
inductive Breach where
  -- frames
  | emptyFrame
  | foreignProtocol (identifier : UInt16)
  | cutOff
  -- requests
  | missingBytes
  | surplusBytes
  | coilValue
  | missingCoilBytes
  | missingCoilBits
  | wordCount
  | writeWordCount
  | requestTooLong
  | functionCode (code : UInt8)
  -- responses
  | responseTooLong
  deriving DecidableEq, Repr

namespace Breach

/-- A digit of the hexadecimal system, capital letters standing for ten and more. -/
private def capitalDigit (n : Nat) : Char :=
  if n < 10 then Char.ofNat (48 + n) else Char.ofNat (55 + n)

private def byteText (b : UInt8) : String :=
  String.ofList ['0', 'x', capitalDigit (b.toNat / 16), capitalDigit (b.toNat % 16)]

/-- The wording of the breach, if there is one. -/
def message? : Breach → Option String
  | emptyFrame => some "Invalid data length: 0"
  | foreignProtocol identifier =>
    some s!"Invalid protocol identifier: expected = 0, actual = {identifier.toNat}"
  | cutOff => some "bytes remaining on stream"
  | missingBytes => some "failed to fill whole buffer"
  | surplusBytes => some "undecoded request data"
  | coilValue => some "Invalid coil value: \x7b\x7d"
  | missingCoilBytes => some "too short"
  | missingCoilBits => none
  | wordCount => some "invalid quantity"
  | writeWordCount => some "invalid write quantity"
  | requestTooLong => some "request PDU size exceeded"
  | functionCode code => some ("invalid function code: " ++ byteText code)
  | responseTooLong => some "response PDU size exceeded"

end Breach

end Fieldbus
