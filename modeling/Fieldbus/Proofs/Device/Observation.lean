import Fieldbus.Proofs.Device.Attempts

/-!
# What operations show of the tables

An operation that reads cells, or that writes cells and is answered with what they hold then,
observes a range of one table.  Whatever way it came in, the cells it shows are the window of that
range in the memory that the operation leaves behind.
-/

namespace Fieldbus

/-- The operation observes the `quantity` cells of the table `k` from `start` on. -/
inductive Operation.Observes : Operation → TableKind → Nat → Nat → Prop where
  | access {k : TableKind} (unitId : UInt8) (a : Access k) :
      Observes (.access k unitId a) k a.start.toNat a.quantity
  | handle {k : TableKind} (unitId : UInt8) (a : Access k) :
      Observes (.handle k unitId a) k a.start.toNat a.quantity
  | readCoils (unitId : UInt8) (start quantity : UInt16) :
      Observes (.serve unitId (.readCoils start quantity)) .coil start.toNat quantity.toNat
  | readDiscreteInputs (unitId : UInt8) (start quantity : UInt16) :
      Observes (.serve unitId (.readDiscreteInputs start quantity)) .discrete start.toNat
        quantity.toNat
  | readHoldingRegisters (unitId : UInt8) (start quantity : UInt16) :
      Observes (.serve unitId (.readHoldingRegisters start quantity)) .holding start.toNat
        quantity.toNat
  | readInputRegisters (unitId : UInt8) (start quantity : UInt16) :
      Observes (.serve unitId (.readInputRegisters start quantity)) .input start.toNat
        quantity.toNat
  | readWriteMultipleRegisters (unitId : UInt8) (readStart readQuantity writeStart : UInt16)
      (values : List UInt16) :
      Observes
        (.serve unitId (.readWriteMultipleRegisters readStart readQuantity writeStart values))
        .holding readStart.toNat readQuantity.toNat

theorem Operation.Observes.isIncrement_eq_false {op : Operation} {k : TableKind}
    {start quantity : Nat} (h : op.Observes k start quantity) : op.isIncrement = false := by
  cases h <;> rfl

/-- The response carries these cells of the table `k`. -/
inductive Response.Shows : Response → (k : TableKind) → List k.Cell → Prop where
  | readCoils (cells : List Bool) : Shows (.readCoils cells) .coil cells
  | readDiscreteInputs (cells : List Bool) : Shows (.readDiscreteInputs cells) .discrete cells
  | readHoldingRegisters (cells : List UInt16) : Shows (.readHoldingRegisters cells) .holding cells
  | readInputRegisters (cells : List UInt16) : Shows (.readInputRegisters cells) .input cells
  | readWriteMultipleRegisters (cells : List UInt16) :
      Shows (.readWriteMultipleRegisters cells) .holding cells

/-- The answer is a success that carries these cells of the table `k`. -/
inductive Answer.Shows : Answer → (k : TableKind) → List k.Cell → Prop where
  | cells {k : TableKind} (cells : List k.Cell) : Shows (.cells k (.ok cells)) k cells
  | response {k : TableKind} {r : Response} {cells : List k.Cell} (h : r.Shows k cells) :
      Shows (.response (.ok r)) k cells

/-- The answer is neither a refusal nor an exception. -/
def Answer.Succeeded : Answer → Prop
  | .cells _ (.error _) => False
  | .response (.error _) => False
  | _ => True

namespace Answer

variable {k : TableKind} {cells : List k.Cell} {answer : Answer}

theorem Shows.of_eq_cells (h : answer = .cells k (.ok cells)) : answer.Shows k cells :=
  h ▸ .cells cells

theorem Shows.of_eq_response {r : Response} (h : answer = .response (.ok r))
    (hr : r.Shows k cells) : answer.Shows k cells :=
  h ▸ .response hr

theorem succeeded_cells_iff {result : Except Refusal (List k.Cell)} :
    (Answer.cells k result).Succeeded ↔ ∃ cells, result = .ok cells := by
  cases result <;> simp [Succeeded]

theorem succeeded_response_iff {result : Except ExceptionCode Response} :
    (Answer.response result).Succeeded ↔ ∃ r, result = .ok r := by
  cases result <;> simp [Succeeded]

end Answer

namespace Device

variable {k : TableKind} {d : Device} {s : DeviceSettings}

/-- A request is answered with a response exactly when its accesses were answered with cells. -/
theorem answer_reply_eq_ok_iff {α : Type} {o : Outcome Device (Except Refusal α)}
    {response : α → Response} {r : Response} :
    (reply o response).answer = .ok r ↔ ∃ cells, o.answer = .ok cells ∧ r = response cells := by
  cases h : o.answer with
  | error refusal => simp [reply, Outcome.map, h]
  | ok cells => simp [reply, Outcome.map, h, eq_comm]

theorem answer_andTry_eq_ok_iff {ε α β : Type} {o : Outcome Device (Except ε α)}
    {next : α → Device → Outcome Device (Except ε β)} {b : β} :
    (o.andTry next).answer = .ok b ↔ ∃ a, o.answer = .ok a ∧ (next a o.state).answer = .ok b := by
  cases h : o.answer <;> simp [Outcome.andTry, Outcome.andThen, h]

/-- A read on behalf of a client that is answered with a response shows the window of its
range. -/
private theorem Realizes.window_of_reply_read (h : d.Realizes s) {unitId : UInt8}
    {start quantity : UInt16} {response : List k.Cell → Response} {r : Response}
    (hr : (reply (d.handle unitId (k := k) (.read start quantity)) response).answer = .ok r) :
    start.toNat + quantity.toNat ≤ s.size ∧
      r = response ((d.tryAll [⟨k, unitId, .read start quantity⟩]).memory.window k start.toNat
        quantity.toNat) := by
  rcases answer_reply_eq_ok_iff.mp hr with ⟨cells, hcells, rfl⟩
  rw [answer_handle] at hcells
  rcases h.admits_of_answer_access hcells with ⟨hadmits, rfl⟩
  rw [tryAll_singleton]
  exact ⟨hadmits.2, rfl⟩

/-- An operation that succeeds shows the range it observes, as it is in the memory that the
operation leaves, and the range lies inside the table. -/
theorem Realizes.shows_window (h : d.Realizes s) {op : Operation} {start quantity : Nat}
    (hobserves : op.Observes k start quantity) (hsucceeded : (d.apply op).answer.Succeeded) :
    start + quantity ≤ s.size ∧
      (d.apply op).answer.Shows k ((d.apply op).state.memory.window k start quantity) := by
  -- One case for each way in: straight to the tables, on behalf of a client, or by a request.
  cases hobserves with
  | access unitId a =>
    obtain ⟨cells, hanswer⟩ : ∃ cells, (d.access unitId a).answer = .ok cells :=
      Answer.succeeded_cells_iff.mp hsucceeded
    rcases h.admits_of_answer_access hanswer with ⟨hadmits, rfl⟩
    exact ⟨hadmits.2, .of_eq_cells (congrArg (Answer.cells k) hanswer)⟩
  | handle unitId a =>
    obtain ⟨cells, hanswer⟩ : ∃ cells, (d.handle unitId a).answer = .ok cells :=
      Answer.succeeded_cells_iff.mp hsucceeded
    have hshown : (d.apply (.handle k unitId a)).answer = .cells k (.ok cells) :=
      congrArg (Answer.cells k) hanswer
    have hstate : (d.apply (.handle k unitId a)).state = (d.access unitId a).state :=
      state_handle d unitId a
    rw [answer_handle] at hanswer
    rcases h.admits_of_answer_access hanswer with ⟨hadmits, rfl⟩
    rw [hstate]
    exact ⟨hadmits.2, .of_eq_cells hshown⟩
  | readCoils unitId start quantity | readDiscreteInputs unitId start quantity
  | readHoldingRegisters unitId start quantity | readInputRegisters unitId start quantity =>
    rcases Answer.succeeded_response_iff.mp hsucceeded with ⟨r, hr⟩
    have hshown := congrArg Answer.response hr
    -- The memory of the window is the one after the only access of the request.
    rcases h.window_of_reply_read hr with ⟨hrange, rfl⟩
    rw [state_apply]
    exact ⟨hrange, .of_eq_response hshown (by constructor)⟩
  | readWriteMultipleRegisters unitId readStart readQuantity writeStart values =>
    rcases Answer.succeeded_response_iff.mp hsucceeded with ⟨r, hr⟩
    have hshown := congrArg Answer.response hr
    rcases answer_reply_eq_ok_iff.mp hr with ⟨cells, hcells, rfl⟩
    rcases answer_andTry_eq_ok_iff.mp hcells with ⟨written, hwritten, hread⟩
    rw [answer_handle] at hwritten hread
    rw [state_handle] at hread
    -- The read happens on the device that the write leaves.
    let write : Attempt := ⟨.holding, unitId, .write (by decide) writeStart values⟩
    let read : Attempt := ⟨.holding, unitId, .read readStart readQuantity⟩
    have hwrite : (d.access unitId write.access).state.Realizes s := h.access unitId write.access
    rcases hwrite.admits_of_answer_access hread with ⟨hadmits, rfl⟩
    have hstate : d.tryAll [write, read] =
        ((d.access unitId write.access).state.access unitId read.access).state := by
      rw [tryAll_cons_of_ok (a := write) hwritten, tryAll_singleton]
    have hafter : (d.apply (.serve unitId
          (.readWriteMultipleRegisters readStart readQuantity writeStart values))).state =
        ((d.access unitId write.access).state.access unitId read.access).state :=
      (state_apply d _).trans hstate
    rw [hafter]
    exact ⟨hadmits.2, .of_eq_response hshown (by constructor)⟩

end Device

end Fieldbus
