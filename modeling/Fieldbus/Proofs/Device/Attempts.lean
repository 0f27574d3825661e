import Fieldbus.Device.Operation
import Fieldbus.Proofs.Device.Admission

/-!
# Operations as accesses

Whatever way an operation comes in, all it does to a device is a short list of table accesses, one
after the other up to the first that is refused, or one step of the counter.  `Operation.attempts`
lists the accesses and `Device.state_apply` says that nothing else happens, so that what accesses
and increments preserve holds after every run.
-/

namespace Fieldbus

theorem TableKind.writable_holding : TableKind.holding.Writable := Or.inl rfl

theorem TableKind.writable_coil : TableKind.coil.Writable := Or.inr rfl

/-- An access that an operation asks a device for. -/
structure Attempt where
  kind : TableKind
  unitId : UInt8
  access : Access kind

/-- A device with these settings admits the access. -/
def Attempt.Admitted (s : DeviceSettings) (a : Attempt) : Prop :=
  s.Admits a.unitId a.access.start a.access.quantity

instance (s : DeviceSettings) (a : Attempt) : Decidable (a.Admitted s) :=
  inferInstanceAs (Decidable (s.Admits ..))

/-- The accesses that serving a request asks for, in order. -/
def Request.attempts (unitId : UInt8) : Request → List Attempt
  | .readCoils start quantity => [⟨.coil, unitId, .read start quantity⟩]
  | .readDiscreteInputs start quantity => [⟨.discrete, unitId, .read start quantity⟩]
  | .readHoldingRegisters start quantity => [⟨.holding, unitId, .read start quantity⟩]
  | .readInputRegisters start quantity => [⟨.input, unitId, .read start quantity⟩]
  | .writeSingleCoil address value =>
    [⟨.coil, unitId, .write TableKind.writable_coil address [value]⟩]
  | .writeSingleRegister address value =>
    [⟨.holding, unitId, .write TableKind.writable_holding address [value]⟩]
  | .writeMultipleCoils start values =>
    if Device.maxWriteQuantity < values.length then []
    else [⟨.coil, unitId, .write TableKind.writable_coil start values⟩]
  | .writeMultipleRegisters start values =>
    if Device.maxWriteQuantity < values.length then []
    else [⟨.holding, unitId, .write TableKind.writable_holding start values⟩]
  | .readWriteMultipleRegisters readStart readQuantity writeStart values =>
    [⟨.holding, unitId, .write TableKind.writable_holding writeStart values⟩,
      ⟨.holding, unitId, .read readStart readQuantity⟩]
  | .maskWriteRegister .. | .reportServerId | .custom .. => []

namespace Operation

/-- The accesses that an operation asks for, in order. -/
def attempts : Operation → List Attempt
  | .access k unitId a | .handle k unitId a => [⟨k, unitId, a⟩]
  | .serve unitId request => request.attempts unitId
  | .increment | .counter => []

/-- The operation is a step of the live counter. -/
def isIncrement : Operation → Bool
  | .increment => true
  | _ => false

end Operation

namespace Device

variable {k : TableKind} {d : Device} {s : DeviceSettings}

/-- The device after accesses one after the other, up to the first that is refused. -/
def tryAll (d : Device) : List Attempt → Device
  | [] => d
  | a :: later =>
    let done := d.access a.unitId a.access
    match done.answer with
    | .ok _ => done.state.tryAll later
    | .error _ => done.state

/-! ## Single operations -/

@[simp] theorem answer_handle (d : Device) (unitId : UInt8) (a : Access k) :
    (d.handle unitId a).answer = (d.access unitId a).answer := by
  unfold handle
  cases h : (d.access unitId a).answer <;> simp [h]

@[simp] theorem state_handle (d : Device) (unitId : UInt8) (a : Access k) :
    (d.handle unitId a).state = (d.access unitId a).state := by
  unfold handle
  cases h : (d.access unitId a).answer <;> simp [h]

@[simp] theorem state_reply {α : Type} (o : Outcome Device (Except Refusal α))
    (response : α → Response) : (reply o response).state = o.state :=
  rfl

theorem tryAll_cons_of_ok {a : Attempt} {cells : List a.kind.Cell}
    (hanswer : (d.access a.unitId a.access).answer = .ok cells) (later : List Attempt) :
    d.tryAll (a :: later) = (d.access a.unitId a.access).state.tryAll later := by
  rw [tryAll, hanswer]

theorem tryAll_cons_of_error {a : Attempt} {refusal : Refusal}
    (hanswer : (d.access a.unitId a.access).answer = .error refusal) (later : List Attempt) :
    d.tryAll (a :: later) = (d.access a.unitId a.access).state := by
  rw [tryAll, hanswer]

theorem tryAll_singleton (d : Device) (a : Attempt) :
    d.tryAll [a] = (d.access a.unitId a.access).state := by
  cases hanswer : (d.access a.unitId a.access).answer with
  | ok cells => exact tryAll_cons_of_ok hanswer []
  | error refusal => exact tryAll_cons_of_error hanswer []

theorem state_andTry {ε α β : Type} (o : Outcome Device (Except ε α))
    (next : α → Device → Outcome Device (Except ε β)) :
    (o.andTry next).state =
      match o.answer with
      | .ok a => (next a o.state).state
      | .error _ => o.state := by
  cases h : o.answer <;> simp [Outcome.andTry, Outcome.andThen, h]

/-- Serving a request is trying its accesses. -/
theorem state_serve (d : Device) (unitId : UInt8) (request : Request) :
    (d.serve unitId request).state = d.tryAll (request.attempts unitId) := by
  cases request with
  | readWriteMultipleRegisters readStart readQuantity writeStart values =>
    rw [serve, state_reply, state_andTry, Request.attempts, tryAll]
    simp only [answer_handle, state_handle]
    cases (d.access unitId (k := .holding) (.write (by decide) writeStart values)).answer with
    | error refusal => rfl
    | ok cells =>
      -- The read is the last access, so it ends the row however it is answered.
      let written := (d.access unitId (k := .holding) (.write (by decide) writeStart values)).state
      let reading : Attempt := ⟨.holding, unitId, .read readStart readQuantity⟩
      exact (tryAll_singleton written reading).symm
  | writeMultipleCoils start values =>
    rw [serve, Request.attempts]
    split
    · rfl
    · simp [tryAll_singleton]
  | writeMultipleRegisters start values =>
    rw [serve, Request.attempts]
    split
    · rfl
    · simp [tryAll_singleton]
  | maskWriteRegister => rfl
  | reportServerId => rfl
  | custom => rfl
  | _ =>
    -- All other functions ask for exactly one access.
    simp [serve, Request.attempts, tryAll_singleton]

/-- An operation is a step of the counter, or it tries its accesses. -/
theorem state_apply (d : Device) (op : Operation) :
    (d.apply op).state = if op.isIncrement then d.increment.state else d.tryAll op.attempts := by
  cases op with
  | access k unitId a => exact (tryAll_singleton d ⟨k, unitId, a⟩).symm
  | handle k unitId a =>
    exact (state_handle d unitId a).trans (tryAll_singleton d ⟨k, unitId, a⟩).symm
  | serve unitId request => exact state_serve d unitId request
  | increment => rfl
  | counter => rfl

/-- Accesses of which the first is refused leave the memory as it was. -/
theorem Realizes.memory_tryAll_of_not_admitted (h : d.Realizes s) {a : Attempt}
    (ha : ¬ a.Admitted s) (later : List Attempt) : (d.tryAll (a :: later)).memory = d.memory := by
  cases hanswer : (d.access a.unitId a.access).answer with
  | ok cells => exact absurd (h.admits_of_answer_access hanswer).1 ha
  | error refusal =>
    rw [tryAll_cons_of_error hanswer, h.memory_access]
    exact if_neg ha

/-! ## What accesses and increments preserve -/

theorem tryAll_preserves {P : Device → Prop}
    (haccess : ∀ (d : Device) (unitId : UInt8) (k : TableKind) (a : Access k),
      P d → P (d.access unitId a).state)
    (attempts : List Attempt) (hd : P d) : P (d.tryAll attempts) := by
  -- The device changes with each access, so the induction is for all devices at once.
  induction attempts generalizing d with
  | nil => exact hd
  | cons a later ih =>
    have hstep := haccess d a.unitId a.kind a.access hd
    cases hanswer : (d.access a.unitId a.access).answer with
    | ok cells =>
      rw [tryAll_cons_of_ok hanswer]
      exact ih hstep
    | error refusal =>
      rw [tryAll_cons_of_error hanswer]
      exact hstep

theorem apply_preserves {P : Device → Prop}
    (haccess : ∀ (d : Device) (unitId : UInt8) (k : TableKind) (a : Access k),
      P d → P (d.access unitId a).state)
    (hincrement : ∀ d : Device, P d → P d.increment.state) (op : Operation) (hd : P d) :
    P (d.apply op).state := by
  rw [state_apply]
  split
  · exact hincrement d hd
  · exact tryAll_preserves haccess op.attempts hd

/-- What every access and every step of the counter preserves holds after every run. -/
theorem run_preserves {P : Device → Prop}
    (haccess : ∀ (d : Device) (unitId : UInt8) (k : TableKind) (a : Access k),
      P d → P (d.access unitId a).state)
    (hincrement : ∀ d : Device, P d → P d.increment.state) (ops : List Operation) (hd : P d) :
    P (d.run ops).state := by
  induction ops generalizing d with
  | nil => exact hd
  | cons op ops ih => exact ih (apply_preserves haccess hincrement op hd)

theorem Realizes.increment (h : d.Realizes s) : d.increment.state.Realizes s :=
  ⟨h.valid, h.unitId_eq, h.counterAddress_eq, h.size_eq⟩

theorem Realizes.apply (h : d.Realizes s) (op : Operation) : (d.apply op).state.Realizes s :=
  apply_preserves (P := (·.Realizes s)) (fun _ unitId _ a hd => hd.access unitId a)
    (fun _ hd => hd.increment) op h

theorem Realizes.run (h : d.Realizes s) (ops : List Operation) : (d.run ops).state.Realizes s :=
  run_preserves (P := (·.Realizes s)) (fun _ unitId _ a hd => hd.access unitId a)
    (fun _ hd => hd.increment) ops h

/-! ## Runs -/

theorem run_append (d : Device) (before after : List Operation) :
    (d.run (before ++ after)).state = ((d.run before).state.run after).state := by
  induction before generalizing d with
  | nil => rfl
  | cons op before ih => exact ih (d.apply op).state

theorem events_run_append (d : Device) (before after : List Operation) :
    (d.run (before ++ after)).events =
      (d.run before).events ++ ((d.run before).state.run after).events := by
  induction before generalizing d with
  | nil => rfl
  | cons op before ih =>
    have hlater := congrArg ((d.apply op).events ++ ·) (ih (d.apply op).state)
    exact hlater.trans (List.append_assoc ..).symm

theorem run_concat (d : Device) (before : List Operation) (op : Operation) :
    (d.run (before ++ [op])).state = ((d.run before).state.apply op).state :=
  run_append d before [op]

/-- In a run, an operation answers as it does on the device that the operations before it leave. -/
theorem getElem?_answer_run (d : Device) (before after : List Operation) (op : Operation) :
    (d.run (before ++ op :: after)).answer[before.length]? =
      some ((d.run before).state.apply op).answer := by
  induction before generalizing d with
  | nil => rfl
  | cons first before ih => exact ih (d.apply first).state

end Device

/-! ## Devices that are built from settings -/

namespace Memory

@[simp] theorem size_applySeed (m : Memory) (seed : Seed) : (m.applySeed seed).1.size = m.size := by
  unfold applySeed
  split
  · rfl
  · split
    · exact size_lay ..
    · rfl

@[simp] theorem size_applySeeds (m : Memory) (seeds : List Seed) :
    (m.applySeeds seeds).1.size = m.size := by
  induction seeds generalizing m with
  | nil => rfl
  | cons seed seeds ih => exact (ih _).trans (size_applySeed m seed)

end Memory

namespace Device

variable {d : Device} {s : DeviceSettings} {warnings : List Event}

/-- A device is built from valid settings only: its memory holds the seeds, and the counter in it
starts at zero. -/
theorem create_eq_ok (hcreate : create s = .ok (d, warnings)) :
    s.Valid ∧ d.unitId = s.unitId ∧ d.counterAddress = s.counterAddress ∧
      d.memory = ((Memory.blank s.size).applySeeds s.initialData).1.setCounter
        s.counterAddress.toNat 0 := by
  cases hvalidate : s.validate with
  -- Settings that are not valid build nothing.
  | error e => simp [create, hvalidate, bind, Except.bind] at hcreate
  | ok u =>
    have hvalid : s.Valid := s.validate_eq_ok_iff.mp hvalidate
    simp only [create, hvalidate, bind, Except.bind, pure, Except.pure, Except.ok.injEq,
      Prod.mk.injEq] at hcreate
    rcases hcreate with ⟨rfl, -⟩
    exact ⟨hvalid, rfl, rfl, rfl⟩

theorem realizes_of_create (hcreate : create s = .ok (d, warnings)) : d.Realizes s := by
  rcases create_eq_ok hcreate with ⟨hvalid, hunit, hcounter, hmemory⟩
  have hsize : d.memory.size = s.size := by
    rw [hmemory, Memory.size_setCounter, Memory.size_applySeeds]
    rfl
  exact ⟨hvalid, hunit, hcounter, hsize⟩

/-- The device can be reached from settings: it was built from them and then operated on. -/
def ReachableFrom (d : Device) (s : DeviceSettings) : Prop :=
  ∃ (first : Device) (warnings : List Event) (ops : List Operation),
    create s = .ok (first, warnings) ∧ d = (first.run ops).state

theorem ReachableFrom.realizes (h : d.ReachableFrom s) : d.Realizes s := by
  rcases h with ⟨first, warnings, ops, hcreate, rfl⟩
  exact (realizes_of_create hcreate).run ops

end Device

/-! ## A small device -/

/-- Settings for four cells in each table, with the counter in the second, which is seeded too. -/
def fourCells : DeviceSettings :=
  { maxRegisters := 4
    counterAddress := 1
    initialData := [⟨"holding", 1, 8⟩, ⟨"holding", 3, 9⟩] }

/-- The device that is built from `fourCells`. -/
def fourCellDevice : Device :=
  { unitId := 1
    counterAddress := 1
    memory :=
      { size := 4
        holding := #[0, 0, 0, 9]
        input := #[0, 0, 0, 0]
        coils := #[false, false, false, false]
        discrete := #[false, false, false, false] } }

theorem create_fourCells :
    Device.create fourCells = .ok (fourCellDevice, [.deviceReady 4 1 1]) := by
  rfl

end Fieldbus
