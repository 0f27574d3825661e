import Fieldbus.Proofs.Device.Observation

/-!
# Exceptions

Which exception a request is answered with is decided by the settings of the device alone: first
come the functions that no table backs, then the lists that are too long, then the unit, and last
the ranges.  A request that is answered with an exception leaves the memory as it was, but for one
that writes and reads when only its read goes beyond the tables: its write stays.
-/

namespace Fieldbus

namespace Request

/-- The request writes more items than 16 bits can count. -/
def TooLong : Request → Prop
  | .writeMultipleCoils _ values => 65535 < values.length
  | .writeMultipleRegisters _ values => 65535 < values.length
  | _ => False

instance (r : Request) : Decidable r.TooLong :=
  match r with
  | .writeMultipleCoils .. | .writeMultipleRegisters .. => inferInstanceAs (Decidable (_ < _))
  | .readCoils .. | .readDiscreteInputs .. | .readHoldingRegisters .. | .readInputRegisters ..
  | .writeSingleCoil .. | .writeSingleRegister .. | .readWriteMultipleRegisters ..
  | .maskWriteRegister .. | .reportServerId | .custom .. => isFalse not_false

/-- A range of the request ends beyond tables of `size` cells. -/
def Overruns (size : Nat) : Request → Prop
  | .readCoils start quantity | .readDiscreteInputs start quantity
  | .readHoldingRegisters start quantity | .readInputRegisters start quantity =>
    size < start.toNat + quantity.toNat
  | .writeSingleCoil address _ | .writeSingleRegister address _ => size < address.toNat + 1
  | .writeMultipleCoils start values => size < start.toNat + values.length
  | .writeMultipleRegisters start values => size < start.toNat + values.length
  | .readWriteMultipleRegisters readStart readQuantity writeStart values =>
    size < writeStart.toNat + values.length ∨ size < readStart.toNat + readQuantity.toNat
  | .maskWriteRegister .. | .reportServerId | .custom .. => False

instance (size : Nat) (r : Request) : Decidable (r.Overruns size) :=
  match r with
  | .readCoils .. | .readDiscreteInputs .. | .readHoldingRegisters .. | .readInputRegisters ..
  | .writeSingleCoil .. | .writeSingleRegister .. | .writeMultipleCoils ..
  | .writeMultipleRegisters .. => inferInstanceAs (Decidable (_ < _))
  | .readWriteMultipleRegisters .. => inferInstanceAs (Decidable (_ ∨ _))
  | .maskWriteRegister .. | .reportServerId | .custom .. => isFalse not_false

/-- The exception that a device with these settings answers a request for `unitId` with, if any. -/
def exception? (s : DeviceSettings) (unitId : UInt8) (r : Request) : Option ExceptionCode :=
  if ¬ r.Supported then some .illegalFunction
  else if r.TooLong then some .illegalDataValue
  else if unitId ≠ s.unitId then some .illegalFunction
  else if r.Overruns s.size then some .illegalDataAddress
  else none

theorem exception?_eq_none_iff {s : DeviceSettings} {unitId : UInt8} {r : Request} :
    r.exception? s unitId = none ↔
      r.Supported ∧ ¬ r.TooLong ∧ unitId = s.unitId ∧ ¬ r.Overruns s.size := by
  unfold exception?
  -- One hurdle after the other: where one is not cleared, both sides fail.
  split
  · simp_all
  · split
    · simp_all
    · split
      · simp_all
      · split <;> simp_all

theorem exception?_readWriteMultipleRegisters (s : DeviceSettings) (unitId : UInt8)
    (readStart readQuantity writeStart : UInt16) (values : List UInt16) :
    (readWriteMultipleRegisters readStart readQuantity writeStart values).exception? s unitId =
      if unitId ≠ s.unitId then some .illegalFunction
      else if (readWriteMultipleRegisters readStart readQuantity writeStart values).Overruns
          s.size then
        some .illegalDataAddress
      else none := by
  have hsupported :
      (readWriteMultipleRegisters readStart readQuantity writeStart values).Supported := trivial
  have hshort : ¬ (readWriteMultipleRegisters readStart readQuantity writeStart values).TooLong :=
    not_false
  rw [exception?, if_neg (Decidable.not_not.mpr hsupported), if_neg hshort]

/-- The response grants the request: it carries as many items as were to be read, or it repeats the
address and the value that were to be written, or the address and the number of values. -/
def GrantedBy : Request → Response → Prop
  | .readCoils _ quantity, .readCoils cells => cells.length = quantity.toNat
  | .readDiscreteInputs _ quantity, .readDiscreteInputs cells => cells.length = quantity.toNat
  | .readHoldingRegisters _ quantity, .readHoldingRegisters cells => cells.length = quantity.toNat
  | .readInputRegisters _ quantity, .readInputRegisters cells => cells.length = quantity.toNat
  | .writeSingleCoil address value, .writeSingleCoil address' value' =>
    address' = address ∧ value' = value
  | .writeSingleRegister address value, .writeSingleRegister address' value' =>
    address' = address ∧ value' = value
  | .writeMultipleCoils start values, .writeMultipleCoils start' quantity =>
    start' = start ∧ quantity.toNat = values.length
  | .writeMultipleRegisters start values, .writeMultipleRegisters start' quantity =>
    start' = start ∧ quantity.toNat = values.length
  | .readWriteMultipleRegisters _ readQuantity _ _, .readWriteMultipleRegisters cells =>
    cells.length = readQuantity.toNat
  | _, _ => False

/-- A device with these settings may answer a request for `unitId` like this: with the exception
that is due, or else with a response that grants the request. -/
def Admissible (s : DeviceSettings) (unitId : UInt8) (r : Request)
    (answer : Except ExceptionCode Response) : Prop :=
  match r.exception? s unitId with
  | some e => answer = .error e
  | none => ∃ response, answer = .ok response ∧ r.GrantedBy response

/-- The request writes and reads, its write fits into tables of `size` cells, and its read does
not. -/
def ReadsBeyond (size : Nat) : Request → Prop
  | .readWriteMultipleRegisters readStart readQuantity writeStart values =>
    writeStart.toNat + values.length ≤ size ∧ size < readStart.toNat + readQuantity.toNat
  | _ => False

instance (size : Nat) (r : Request) : Decidable (r.ReadsBeyond size) :=
  match r with
  | .readWriteMultipleRegisters .. => inferInstanceAs (Decidable (_ ∧ _))
  | .readCoils .. | .readDiscreteInputs .. | .readHoldingRegisters .. | .readInputRegisters ..
  | .writeSingleCoil .. | .writeSingleRegister .. | .writeMultipleCoils ..
  | .writeMultipleRegisters .. | .maskWriteRegister .. | .reportServerId | .custom .. =>
    isFalse not_false

end Request

namespace Device

variable {k : TableKind} {d : Device} {s : DeviceSettings}

/-! ## Answers -/

theorem answer_reply_of_error {α : Type} {o : Outcome Device (Except Refusal α)}
    {refusal : Refusal} (h : o.answer = .error refusal) (response : α → Response) :
    (reply o response).answer = .error refusal.exceptionCode := by
  simp [reply, Outcome.map, h]

theorem answer_reply_of_ok {α : Type} {o : Outcome Device (Except Refusal α)} {cells : α}
    (h : o.answer = .ok cells) (response : α → Response) :
    (reply o response).answer = .ok (response cells) := by
  simp [reply, Outcome.map, h]

theorem answer_reply_andTry_of_error {α β : Type} {o : Outcome Device (Except Refusal α)}
    {refusal : Refusal} (h : o.answer = .error refusal)
    (next : α → Device → Outcome Device (Except Refusal β)) (response : β → Response) :
    (reply (o.andTry next) response).answer = .error refusal.exceptionCode := by
  simp [reply, Outcome.map, Outcome.andTry, Outcome.andThen, h]

theorem answer_reply_andTry_of_ok {α β : Type} {o : Outcome Device (Except Refusal α)} {a : α}
    (h : o.answer = .ok a) (next : α → Device → Outcome Device (Except Refusal β))
    (response : β → Response) :
    (reply (o.andTry next) response).answer = (reply (next a o.state) response).answer := by
  simp [reply, Outcome.map, Outcome.andTry, Outcome.andThen, h]

/-- An access on behalf of a client is answered with an exception for a wrong unit or a range beyond
the table, and else with a response about the cells of its range. -/
theorem Realizes.answer_reply_handle (h : d.Realizes s) (unitId : UInt8) (a : Access k)
    (response : List k.Cell → Response) :
    (reply (d.handle unitId a) response).answer =
      if unitId ≠ s.unitId then .error .illegalFunction
      else if s.size < a.start.toNat + a.quantity then .error .illegalDataAddress
      else .ok (response
        ((d.access unitId a).state.memory.window k a.start.toNat a.quantity)) := by
  have hanswer := (answer_handle d unitId a).trans (h.answer_access unitId a)
  split
  · rename_i hunit
    rw [if_pos hunit] at hanswer
    exact answer_reply_of_error hanswer response
  · rename_i hunit
    rw [if_neg hunit] at hanswer
    split
    · rename_i hrange
      rw [if_pos hrange] at hanswer
      exact answer_reply_of_error hanswer response
    · rename_i hrange
      rw [if_neg hrange] at hanswer
      exact answer_reply_of_ok hanswer response

/-- A list that is too long is turned down before anything else is looked at. -/
private theorem admissible_of_tooLong {unitId : UInt8} {r : Request}
    (hserve : d.serve unitId r = d.decline .illegalDataValue []) (hsupported : r.Supported)
    (hlong : r.TooLong) : r.Admissible s unitId (d.serve unitId r).answer := by
  rw [Request.Admissible, Request.exception?, if_neg (Decidable.not_not.mpr hsupported),
    if_pos hlong, hserve]
  rfl

/-- A request that asks for one access is answered as it must be. -/
private theorem Realizes.admissible_of_single (h : d.Realizes s) {unitId : UInt8} {r : Request}
    {a : Access k} {response : List k.Cell → Response}
    (hserve : d.serve unitId r = reply (d.handle unitId a) response) (hsupported : r.Supported)
    (hshort : ¬ r.TooLong)
    (hoverruns : r.Overruns s.size ↔ s.size < a.start.toNat + a.quantity)
    (hgranted : ∀ cells : List k.Cell, cells.length = a.quantity → r.GrantedBy (response cells)) :
    r.Admissible s unitId (d.serve unitId r).answer := by
  rw [Request.Admissible, Request.exception?, if_neg (Decidable.not_not.mpr hsupported),
    if_neg hshort, hserve, h.answer_reply_handle]
  by_cases hunit : unitId = s.unitId
  · rw [if_neg (Decidable.not_not.mpr hunit), if_neg (Decidable.not_not.mpr hunit)]
    by_cases hrange : s.size < a.start.toNat + a.quantity
    · rw [if_pos (hoverruns.mpr hrange), if_pos hrange]
    · rw [if_neg (mt hoverruns.mp hrange), if_neg hrange]
      have hsize : (d.access unitId a).state.memory.size = s.size := (h.access unitId a).size_eq
      exact ⟨_, rfl, hgranted _ (Memory.length_window _ _ _ (by omega))⟩
  · rw [if_pos hunit, if_pos hunit]

/-- The request that writes and reads is answered as it must be: its write is tried first. -/
private theorem Realizes.admissible_of_readWrite (h : d.Realizes s) (unitId : UInt8)
    (readStart readQuantity writeStart : UInt16) (values : List UInt16) :
    (Request.readWriteMultipleRegisters readStart readQuantity writeStart values).Admissible s
      unitId (d.serve unitId
        (.readWriteMultipleRegisters readStart readQuantity writeStart values)).answer := by
  let write : Access .holding := .write (by decide) writeStart values
  let read : Access .holding := .read readStart readQuantity
  have hserve : d.serve unitId
      (.readWriteMultipleRegisters readStart readQuantity writeStart values) =
        reply ((d.handle unitId write).andTry fun _ d => d.handle unitId read)
          .readWriteMultipleRegisters :=
    rfl
  have hwrite := (answer_handle d unitId write).trans (h.answer_access unitId write)
  have hwritten : (d.handle unitId write).state.Realizes s := by
    rw [state_handle]
    exact h.access unitId write
  have hread := hwritten.answer_reply_handle unitId read .readWriteMultipleRegisters
  rw [Request.Admissible, Request.exception?_readWriteMultipleRegisters, hserve]
  -- The unit is looked at by the write, the first of the two accesses.
  by_cases hunit : unitId = s.unitId
  · rw [if_neg (Decidable.not_not.mpr hunit)] at hwrite hread ⊢
    by_cases hfits : write.start.toNat + write.quantity ≤ s.size
    · rw [if_neg (Nat.not_lt.mpr hfits)] at hwrite
      rw [answer_reply_andTry_of_ok hwrite, hread]
      by_cases hbeyond : s.size < read.start.toNat + read.quantity
      · have hoverruns : (Request.readWriteMultipleRegisters readStart readQuantity writeStart
            values).Overruns s.size := Or.inr hbeyond
        rw [if_pos hoverruns]
        exact if_pos hbeyond
      · have hinside : ¬ (Request.readWriteMultipleRegisters readStart readQuantity writeStart
            values).Overruns s.size :=
          not_or.mpr ⟨Nat.not_lt.mpr hfits, hbeyond⟩
        have hsize := (hwritten.access unitId read).size_eq
        rw [if_neg hinside]
        refine ⟨_, if_neg hbeyond, Memory.length_window _ _ _ ?_⟩
        rw [hsize]
        exact Nat.not_lt.mp hbeyond
    · have hoverruns : (Request.readWriteMultipleRegisters readStart readQuantity writeStart
          values).Overruns s.size := Or.inl (Nat.not_le.mp hfits)
      rw [if_pos (Nat.not_le.mp hfits)] at hwrite
      rw [answer_reply_andTry_of_error hwrite, if_pos hoverruns]
      rfl
  · rw [if_pos hunit] at hwrite ⊢
    rw [answer_reply_andTry_of_error hwrite]
    rfl

/-- Every request is answered as it must be. -/
theorem Realizes.admissible_serve (h : d.Realizes s) (unitId : UInt8) (r : Request) :
    r.Admissible s unitId (d.serve unitId r).answer := by
  -- Reads and single writes differ in their responses only.
  cases r with
  | readCoils start quantity | readDiscreteInputs start quantity
  | readHoldingRegisters start quantity | readInputRegisters start quantity =>
    exact h.admissible_of_single rfl trivial not_false Iff.rfl fun _ hlength => hlength
  | writeSingleCoil address value | writeSingleRegister address value =>
    exact h.admissible_of_single rfl trivial not_false Iff.rfl fun _ _ => ⟨rfl, rfl⟩
  | writeMultipleCoils start values | writeMultipleRegisters start values =>
    by_cases hlong : 65535 < values.length
    · exact admissible_of_tooLong (if_pos hlong) trivial hlong
    · refine h.admissible_of_single (if_neg hlong) trivial hlong Iff.rfl fun _ _ => ⟨rfl, ?_⟩
      exact toNat_toUInt16_of_le (Nat.not_lt.mp hlong)
  | readWriteMultipleRegisters readStart readQuantity writeStart values =>
    exact h.admissible_of_readWrite unitId readStart readQuantity writeStart values
  | maskWriteRegister | reportServerId | custom => rfl

/-! ## The memory -/

/-- A request of one access that is due an exception is refused that access. -/
private theorem not_admits_of_exception {unitId : UInt8} {r : Request} {start : UInt16}
    {quantity : Nat} (hexception : r.exception? s unitId ≠ none) (hsupported : r.Supported)
    (hshort : ¬ r.TooLong) (hoverruns : r.Overruns s.size ↔ s.size < start.toNat + quantity) :
    ¬ s.Admits unitId start quantity := by
  intro hadmits
  refine hexception (Request.exception?_eq_none_iff.mpr ⟨hsupported, hshort, hadmits.1, ?_⟩)
  rw [hoverruns]
  exact Nat.not_lt.mpr hadmits.2

/-- A request that is due an exception leaves the memory as it was, unless its write fits and only
its read goes beyond the tables. -/
theorem Realizes.memory_serve_of_exception (h : d.Realizes s) {unitId : UInt8} {r : Request}
    (hexception : r.exception? s unitId ≠ none)
    (hwhole : ¬ (unitId = s.unitId ∧ r.ReadsBeyond s.size)) :
    (d.serve unitId r).state.memory = d.memory := by
  rw [state_serve]
  cases r with
  | readCoils start quantity | readDiscreteInputs start quantity
  | readHoldingRegisters start quantity | readInputRegisters start quantity
  | writeSingleCoil address value | writeSingleRegister address value =>
    refine h.memory_tryAll_of_not_admitted (not_admits_of_exception hexception ?_ ?_ ?_) []
    · trivial
    · exact not_false
    · exact Iff.rfl
  | writeMultipleCoils start values | writeMultipleRegisters start values =>
    rw [Request.attempts]
    split
    · rfl
    · rename_i hshort
      refine h.memory_tryAll_of_not_admitted (not_admits_of_exception hexception ?_ ?_ ?_) []
      · trivial
      · exact hshort
      · exact Iff.rfl
  | readWriteMultipleRegisters readStart readQuantity writeStart values =>
    -- Were the write admitted, the exception could only be due to the read.
    refine h.memory_tryAll_of_not_admitted ?_ _
    intro hwrite
    have hadmits : s.Admits unitId writeStart values.length := hwrite
    refine hexception
      (Request.exception?_eq_none_iff.mpr ⟨trivial, not_false, hadmits.1, ?_⟩)
    rintro (hlong | hbeyond)
    · exact Nat.not_le.mpr hlong hadmits.2
    · exact hwhole ⟨hadmits.1, hadmits.2, hbeyond⟩
  | maskWriteRegister | reportServerId | custom => rfl

/-- When only the read of a request goes beyond the tables, the memory is the one after its
write. -/
theorem Realizes.memory_serve_of_readsBeyond (h : d.Realizes s)
    {readStart readQuantity writeStart : UInt16} {values : List UInt16}
    (hbeyond : (Request.readWriteMultipleRegisters readStart readQuantity writeStart
      values).ReadsBeyond s.size) :
    (d.serve s.unitId
        (.readWriteMultipleRegisters readStart readQuantity writeStart values)).state.memory =
      d.memory.lay (d.shields .holding) .holding writeStart.toNat values := by
  let write : Attempt := ⟨.holding, s.unitId, .write (by decide) writeStart values⟩
  let read : Attempt := ⟨.holding, s.unitId, .read readStart readQuantity⟩
  have hwrite : s.Admits s.unitId write.access.start write.access.quantity := ⟨rfl, hbeyond.1⟩
  have hread : ¬ read.Admitted s := fun hadmits => Nat.not_le.mpr hbeyond.2 hadmits.2
  have hattempts : (Request.readWriteMultipleRegisters readStart readQuantity writeStart
      values).attempts s.unitId = [write, read] := rfl
  rw [state_serve, hattempts, tryAll_cons_of_ok (h.answer_access_of_admits hwrite),
    (h.access s.unitId write.access).memory_tryAll_of_not_admitted hread, h.memory_access,
    if_pos hwrite]
  rfl

end Device

/-! ## The decision -/

/-- On every device that can be reached, a request is answered with the exception that is due or
granted if none is, and an exception leaves all tables and the counter as they were.  The one
request that may leave something behind writes and reads for the right unit, and its write fits
though its read does not: then its values are in the holding registers of its range, the one with
the counter excepted, and nothing else has changed. -/
theorem serve_admissible_and_atomic {s : DeviceSettings} {d : Device} (h : d.ReachableFrom s)
    (unitId : UInt8) (r : Request) :
    r.Admissible s unitId (d.serve unitId r).answer ∧
    (r.exception? s unitId ≠ none → ¬ (unitId = s.unitId ∧ r.ReadsBeyond s.size) →
      (d.serve unitId r).state.memory = d.memory) ∧
    (∀ (readStart readQuantity writeStart : UInt16) (values : List UInt16),
      r = .readWriteMultipleRegisters readStart readQuantity writeStart values →
      unitId = s.unitId → r.ReadsBeyond s.size →
      (d.serve unitId r).answer = .error .illegalDataAddress ∧
      (d.serve unitId r).state.memory.counter = d.memory.counter ∧
      (∀ k : TableKind, k ≠ .holding →
        (d.serve unitId r).state.memory.table k = d.memory.table k) ∧
      ∀ x : Nat, (d.serve unitId r).state.memory.cell? .holding x =
        if writeStart.toNat ≤ x ∧ x < writeStart.toNat + values.length ∧
            x ≠ s.counterAddress.toNat then
          values[x - writeStart.toNat]?
        else d.memory.cell? .holding x) := by
  have hrealizes : d.Realizes s := h.realizes
  have hadmissible := hrealizes.admissible_serve unitId r
  refine ⟨hadmissible, fun he hw => hrealizes.memory_serve_of_exception he hw, ?_⟩
  rintro readStart readQuantity writeStart values rfl rfl hbeyond
  have hmemory := hrealizes.memory_serve_of_readsBeyond hbeyond
  refine ⟨?_, ?_, ?_, ?_⟩
  · have hoverruns : (Request.readWriteMultipleRegisters readStart readQuantity writeStart
        values).Overruns s.size := Or.inr hbeyond.2
    have hdue : (Request.readWriteMultipleRegisters readStart readQuantity writeStart
        values).exception? s s.unitId = some .illegalDataAddress := by
      rw [Request.exception?_readWriteMultipleRegisters, if_neg (Decidable.not_not.mpr rfl),
        if_pos hoverruns]
    rw [Request.Admissible, hdue] at hadmissible
    exact hadmissible
  · rw [hmemory, Memory.counter_lay]
  · intro k hk
    rw [hmemory, Memory.table_lay_of_ne _ _ _ _ hk]
  · intro x
    have hshield : d.shields .holding x = false ↔ x ≠ s.counterAddress.toNat := by
      rw [hrealizes.shields_eq_false_iff, DeviceSettings.IsCounterCell]
      simp
    have hsize : writeStart.toNat + values.length ≤ d.memory.size := by
      rw [hrealizes.size_eq]
      exact hbeyond.1
    rw [hmemory, Memory.cell?_lay_self]
    -- A written cell lies inside the table, since the whole write does.
    by_cases hin : writeStart.toNat ≤ x ∧ x < writeStart.toNat + values.length ∧
        x ≠ s.counterAddress.toNat
    · rw [if_pos hin, if_pos ⟨hin.1, hin.2.1, by omega, hshield.mpr hin.2.2⟩]
    · rw [if_neg hin, if_neg fun hall => hin ⟨hall.1, hall.2.1, hshield.mp hall.2.2.2⟩]

/-- The request that reads beyond the tables is answered with an exception, and two of its three
values stay. -/
theorem write_stays_when_read_is_refused :
    fourCellDevice.ReachableFrom fourCells ∧
      (Request.readWriteMultipleRegisters 9 9 0 [5, 6, 7]).ReadsBeyond fourCells.size ∧
      (fourCellDevice.serve 1 (.readWriteMultipleRegisters 9 9 0 [5, 6, 7])).answer =
        .error .illegalDataAddress ∧
      ((fourCellDevice.serve 1
        (.readWriteMultipleRegisters 9 9 0 [5, 6, 7])).state.memory.cell? .holding 0 = some 5) ∧
      (fourCellDevice.serve 2 (.readWriteMultipleRegisters 9 9 0 [5, 6, 7])).answer =
        .error .illegalFunction ∧
      (fourCellDevice.serve 2
        (.readWriteMultipleRegisters 9 9 0 [5, 6, 7])).state.memory = fourCellDevice.memory := by
  have hreachable : fourCellDevice.ReachableFrom fourCells :=
    ⟨fourCellDevice, _, [], create_fourCells, rfl⟩
  have hbeyond : (Request.readWriteMultipleRegisters 9 9 0 [5, 6, 7]).ReadsBeyond
      fourCells.size := by
    decide
  rcases serve_admissible_and_atomic hreachable 1 (.readWriteMultipleRegisters 9 9 0 [5, 6, 7])
    with ⟨-, -, hhalf⟩
  rcases hhalf 9 9 0 [5, 6, 7] rfl rfl hbeyond with ⟨hanswer, -, -, hcells⟩
  rcases serve_admissible_and_atomic hreachable 2 (.readWriteMultipleRegisters 9 9 0 [5, 6, 7])
    with ⟨hadmissible, hwhole, -⟩
  refine ⟨hreachable, hbeyond, hanswer, hcells 0, hadmissible, hwhole (by decide) ?_⟩
  rintro ⟨hunit, -⟩
  exact absurd hunit (by decide)

end Fieldbus
