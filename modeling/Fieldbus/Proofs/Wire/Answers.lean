import Fieldbus.Proofs.Device.Exceptions
import Fieldbus.Proofs.Wire.Frames

/-!
# Which answers fit the wire

A message has at most 253 bytes, and so has an answer.  Exceptions and the responses to writes
always fit, and a response to a read fits up to 2008 bits or 125 words.  A request that is granted
and reads more is carried out and not answered: the connection ends.  Every other request is
answered in exactly one frame, and what was sent behind it is served next.
-/

namespace Fieldbus

namespace Request

/-- The request reads more items than the longest message carries. -/
def ReadsTooMuch : Request → Prop
  | .readCoils _ quantity | .readDiscreteInputs _ quantity => 2008 < quantity.toNat
  | .readHoldingRegisters _ quantity | .readInputRegisters _ quantity
  | .readWriteMultipleRegisters _ quantity _ _ => 125 < quantity.toNat
  | _ => False

/-- The number of bytes of a response that grants the request. -/
def answerSize : Request → Nat
  | .readCoils _ quantity | .readDiscreteInputs _ quantity => 2 + (quantity.toNat + 7) / 8
  | .readHoldingRegisters _ quantity | .readInputRegisters _ quantity
  | .readWriteMultipleRegisters _ quantity _ _ => 2 + 2 * quantity.toNat
  | _ => 5

theorem length_countedWordsBytes (words : List UInt16) :
    (countedWordsBytes words).length = 1 + 2 * words.length := by
  rw [countedWordsBytes, List.length_cons, length_wordsBytes, Nat.add_comm]

theorem length_countedBitsBytes (bits : List Bool) :
    (countedBitsBytes bits).length = 1 + (bits.length + 7) / 8 := by
  rw [countedBitsBytes, List.length_cons, length_packBits, Nat.add_comm]

/-- All responses that grant a request are of one length. -/
theorem GrantedBy.length_toBytes {r : Request} {response : Response} (h : r.GrantedBy response) :
    response.toBytes.length = r.answerSize := by
  unfold GrantedBy at h
  -- One case for each function that a device carries out; no other response grants a request.
  split at h
  case h_1 | h_2 =>
    have hbody := length_countedBitsBytes
    simp only [Response.toBytes, Response.body, List.length_cons, hbody, answerSize, h]
    omega
  case h_3 | h_4 | h_9 =>
    have hbody := length_countedWordsBytes
    simp only [Response.toBytes, Response.body, List.length_cons, hbody, answerSize, h]
    omega
  case h_5 | h_6 | h_7 | h_8 => rfl
  case h_10 => exact h.elim

/-- A request reads too much exactly when no response that grants it is a message. -/
theorem readsTooMuch_iff (r : Request) : r.ReadsTooMuch ↔ maxMessageSize < r.answerSize := by
  cases r with
  | readCoils start quantity | readDiscreteInputs start quantity =>
    have hbits : 2008 < quantity.toNat ↔ 253 < 2 + (quantity.toNat + 7) / 8 := by omega
    exact hbits
  | readHoldingRegisters start quantity | readInputRegisters start quantity
  | readWriteMultipleRegisters start quantity writeStart values =>
    have hwords : 125 < quantity.toNat ↔ 253 < 2 + 2 * quantity.toNat := by omega
    exact hwords
  | _ =>
    have hfew : ¬ 253 < 5 := by decide
    exact iff_of_false not_false hfew

end Request

/-- What serving leaves that sends a frame first and then serves the bytes behind it. -/
def Served.after (answer : Frame) (later : Served) : Served :=
  { later with sent := answer.toBytes ++ later.sent }

namespace Device

variable {d : Device} {s : DeviceSettings}

/-! ## The bytes of an answer -/

theorem Realizes.answerBytes_of_exception (h : d.Realizes s) {unitId : UInt8} {r : Request}
    {e : ExceptionCode} (hexception : r.exception? s unitId = some e) :
    answerBytes r (d.serve unitId r).answer = .ok [r.functionCode + 0x80, e.toByte] := by
  have hadmissible := h.admissible_serve unitId r
  rw [Request.Admissible, hexception] at hadmissible
  have hanswer : (d.serve unitId r).answer = .error e := hadmissible
  rw [hanswer]
  rfl

theorem Realizes.exists_response (h : d.Realizes s) {unitId : UInt8} {r : Request}
    (hexception : r.exception? s unitId = none) :
    ∃ response, (d.serve unitId r).answer = .ok response ∧ r.GrantedBy response := by
  have hadmissible := h.admissible_serve unitId r
  rw [Request.Admissible, hexception] at hadmissible
  exact hadmissible

theorem Realizes.answerBytes_of_readsTooMuch (h : d.Realizes s) {unitId : UInt8} {r : Request}
    (hexception : r.exception? s unitId = none) (hmuch : r.ReadsTooMuch) :
    answerBytes r (d.serve unitId r).answer = .error .responseTooLong := by
  rcases h.exists_response hexception with ⟨response, hanswer, hgranted⟩
  have hlong : maxMessageSize < response.toBytes.length := by
    rw [hgranted.length_toBytes]
    exact r.readsTooMuch_iff.mp hmuch
  rw [hanswer]
  exact if_pos hlong

theorem Realizes.answerBytes_of_fits (h : d.Realizes s) {unitId : UInt8} {r : Request}
    (hexception : r.exception? s unitId = none) (hfits : ¬ r.ReadsTooMuch) :
    ∃ response, r.GrantedBy response ∧ response.toBytes.length ≤ maxMessageSize ∧
      answerBytes r (d.serve unitId r).answer = .ok response.toBytes := by
  rcases h.exists_response hexception with ⟨response, hanswer, hgranted⟩
  have hshort : ¬ maxMessageSize < response.toBytes.length := by
    rw [hgranted.length_toBytes, ← r.readsTooMuch_iff]
    exact hfits
  refine ⟨response, hgranted, Nat.not_lt.mp hshort, ?_⟩
  rw [hanswer]
  exact if_neg hshort

/-! ## Served frames -/

theorem answerFrame_of_ofBytes (d : Device) {f : Frame} {r : Request}
    (hread : Request.ofBytes f.message = .ok r) :
    d.answerFrame f = (d.serve f.unitId r).map fun answer =>
      (answerBytes r answer).map fun message => { f with message } := by
  rw [answerFrame, hread]

/-- A frame whose request is answered by a message is answered in one frame, and the bytes behind it
are served on the device that the request leaves. -/
theorem answer_serveBytes_of_message {f : Frame} {r : Request} {message : List UInt8}
    (hsize : f.message.length < 65535) (hread : Request.ofBytes f.message = .ok r)
    (hmessage : answerBytes r (d.serve f.unitId r).answer = .ok message) (rest : List UInt8) :
    (d.serveBytes (f.toBytes ++ rest)).answer =
      Served.after { f with message } ((d.serve f.unitId r).state.serveBytes rest).answer := by
  rw [d.serveBytes_of_scan (f.scan_toBytes_append rest hsize), d.answerFrame_of_ofBytes hread]
  simp only [Outcome.andThen, Outcome.map, hmessage, Except.map]
  rfl

theorem state_serveBytes_of_message {f : Frame} {r : Request} {message : List UInt8}
    (hsize : f.message.length < 65535) (hread : Request.ofBytes f.message = .ok r)
    (hmessage : answerBytes r (d.serve f.unitId r).answer = .ok message) (rest : List UInt8) :
    (d.serveBytes (f.toBytes ++ rest)).state =
      ((d.serve f.unitId r).state.serveBytes rest).state := by
  rw [d.serveBytes_of_scan (f.scan_toBytes_append rest hsize), d.answerFrame_of_ofBytes hread]
  simp only [Outcome.andThen, Outcome.map, hmessage, Except.map]

/-- A frame whose request cannot be answered ends the service, whatever is behind it. -/
theorem answer_serveBytes_of_breach {f : Frame} {r : Request} {reason : Breach}
    (hsize : f.message.length < 65535) (hread : Request.ofBytes f.message = .ok r)
    (hbreach : answerBytes r (d.serve f.unitId r).answer = .error reason) (rest : List UInt8) :
    (d.serveBytes (f.toBytes ++ rest)).answer = { breach := some reason } ∧
      (d.serveBytes (f.toBytes ++ rest)).state = (d.serve f.unitId r).state := by
  rw [d.serveBytes_of_scan (f.scan_toBytes_append rest hsize), d.answerFrame_of_ofBytes hread]
  simp only [Outcome.andThen, Outcome.map, hbreach, Except.map, and_self]

end Device

/-! ## One frame for one request -/

/-- On every device that can be reached, a request in a frame that a client can send is answered in
exactly one frame with the same transaction and unit: by the exception that is due, or, when none is
and the request does not read too much, by a response that grants it and fits.  What was sent behind
it is served next, on the device that the request leaves.  Only a request that is granted and reads
too much is not answered: it is carried out, nothing is sent, and the connection ends. -/
theorem answered_in_one_frame_unless_too_long {s : DeviceSettings} {d : Device}
    (h : d.ReachableFrom s) {f : Frame} {r : Request} (hsize : f.message.length ≤ maxMessageSize)
    (hread : Request.ofBytes f.message = .ok r) (rest : List UInt8) :
    (∀ e : ExceptionCode, r.exception? s f.unitId = some e →
      (d.serveBytes (f.toBytes ++ rest)).answer =
        Served.after { f with message := [r.functionCode + 0x80, e.toByte] }
          ((d.serve f.unitId r).state.serveBytes rest).answer) ∧
    (r.exception? s f.unitId = none → ¬ r.ReadsTooMuch →
      ∃ response : Response, r.GrantedBy response ∧
        response.toBytes.length ≤ maxMessageSize ∧
        (d.serveBytes (f.toBytes ++ rest)).answer =
          Served.after { f with message := response.toBytes }
            ((d.serve f.unitId r).state.serveBytes rest).answer) ∧
    (r.exception? s f.unitId = none → r.ReadsTooMuch →
      (d.serveBytes (f.toBytes ++ rest)).answer = { breach := some .responseTooLong } ∧
        (d.serveBytes (f.toBytes ++ rest)).state = (d.serve f.unitId r).state) := by
  have hrealizes : d.Realizes s := h.realizes
  have hframe : f.message.length < 65535 := Nat.lt_of_le_of_lt hsize (by decide)
  refine ⟨?_, ?_, ?_⟩
  · intro e hexception
    exact Device.answer_serveBytes_of_message hframe hread
      (hrealizes.answerBytes_of_exception hexception) rest
  · intro hexception hfits
    rcases hrealizes.answerBytes_of_fits hexception hfits with ⟨response, hgranted, hle, hmessage⟩
    exact ⟨response, hgranted, hle,
      Device.answer_serveBytes_of_message hframe hread hmessage rest⟩
  · intro hexception hmuch
    exact Device.answer_serveBytes_of_breach hframe hread
      (hrealizes.answerBytes_of_readsTooMuch hexception hmuch) rest

/-- A read of two registers in a frame is answered in one frame. -/
theorem read_of_two_answered :
    fourCellDevice.ReachableFrom fourCells ∧
      Request.ofBytes [3, 0, 2, 0, 2] = .ok (.readHoldingRegisters 2 2) ∧
      ∃ response : Response, (Request.readHoldingRegisters 2 2).GrantedBy response ∧
        response.toBytes.length ≤ maxMessageSize ∧
        (fourCellDevice.serveBytes ((Frame.mk 7 1 [3, 0, 2, 0, 2]).toBytes ++ [])).answer =
          Served.after (Frame.mk 7 1 response.toBytes)
            ((fourCellDevice.serve 1 (.readHoldingRegisters 2 2)).state.serveBytes []).answer := by
  have hreachable : fourCellDevice.ReachableFrom fourCells :=
    ⟨fourCellDevice, _, [], create_fourCells, rfl⟩
  have hread : Request.ofBytes [3, 0, 2, 0, 2] = .ok (.readHoldingRegisters 2 2) := rfl
  have hanswered := answered_in_one_frame_unless_too_long hreachable
    (f := Frame.mk 7 1 [3, 0, 2, 0, 2]) (by decide) hread []
  have hfits : ¬ (Request.readHoldingRegisters 2 2).ReadsTooMuch := by
    rw [Request.readsTooMuch_iff]
    decide
  exact ⟨hreachable, hread, hanswered.2.1 rfl hfits⟩

/-! ## Settings whose tables are longer than an answer -/

/-- Settings for one register more than an answer carries. -/
def longTables : DeviceSettings :=
  { maxRegisters := 126
    counterAddress := 0
    initialData := [] }

/-- The device that is built from `longTables`. -/
def longTableDevice : Device :=
  { unitId := 1
    counterAddress := 0
    memory := (Memory.blank 126).setCounter 0 0 }

theorem create_longTables :
    Device.create longTables = .ok (longTableDevice, [.deviceReady 126 1 0]) := by
  rfl

/-- Not every request for the right unit whose range lies inside the tables is answered: a read of
126 registers fits a frame, and ends its connection with nothing sent. -/
theorem read_of_126_unanswered :
    longTableDevice.ReachableFrom longTables ∧ longTables.Valid ∧
      Request.ofBytes [3, 0, 0, 0, 126] = .ok (.readHoldingRegisters 0 126) ∧
      longTables.unitId = 1 ∧ ¬ (Request.readHoldingRegisters 0 126).Overruns longTables.size ∧
      (longTableDevice.serveBytes (Frame.mk 1 1 [3, 0, 0, 0, 126]).toBytes).answer =
        { sent := [], kept := [], breach := some .responseTooLong } := by
  have hreachable : longTableDevice.ReachableFrom longTables :=
    ⟨longTableDevice, _, [], create_longTables, rfl⟩
  have hread : Request.ofBytes [3, 0, 0, 0, 126] = .ok (.readHoldingRegisters 0 126) := rfl
  have hmuch : (Request.readHoldingRegisters 0 126).ReadsTooMuch :=
    (Request.readsTooMuch_iff _).mpr (by decide)
  have hgranted : (Request.readHoldingRegisters 0 126).exception? longTables 1 = none := rfl
  have hbreach := hreachable.realizes.answerBytes_of_readsTooMuch hgranted hmuch
  have hserved := (Device.answer_serveBytes_of_breach
    (f := Frame.mk 1 1 [3, 0, 0, 0, 126]) (by decide) hread hbreach []).1
  rw [List.append_nil] at hserved
  exact ⟨hreachable, longTables.validate_eq_ok_iff.mp rfl, hread, rfl, by decide, hserved⟩

end Fieldbus
