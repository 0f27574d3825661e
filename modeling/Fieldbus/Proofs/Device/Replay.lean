import Fieldbus.Proofs.Device.Bounds
import Fieldbus.Proofs.Device.Counter
import Fieldbus.Proofs.Device.History

/-!
# Replaying the journal

Two kinds of events tell that a holding register changed: a register was written, and the counter
was updated.  Both say where, what the register held, and what it holds.  `replay?` applies them to
a table and gives up as soon as one is wrong about what was held.  The journal of a run takes the
table from before the run to the table after it, and the changes stand in it with the writes over
the counter that were ignored (`Event.mark?`) in the order of the writes that were carried out and
of the registers in each.
-/

namespace Fieldbus

/-- Where a holding register changed, what it held before, and what it holds now. -/
def Event.change? : Event → Option (Nat × UInt16 × UInt16)
  | .registerWritten x old new => some (x, old, new)
  | .counterUpdated address old new => some (address.toNat, old, new)
  | _ => none

/-- Applies the change that an event tells of, if the register held what the event says. -/
def replayEvent? (cells : Array UInt16) (e : Event) : Option (Array UInt16) :=
  match e.change? with
  | some (x, old, new) => if cells[x]? = some old then some (cells.setIfInBounds x new) else none
  | none => some cells

/-- Applies the changes that events tell of, one after the other. -/
def replay? (cells : Array UInt16) (events : List Event) : Option (Array UInt16) :=
  events.foldlM replayEvent? cells

@[simp] theorem replay?_nil (cells : Array UInt16) : replay? cells [] = some cells :=
  rfl

theorem replay?_cons (cells : Array UInt16) (e : Event) (events : List Event) :
    replay? cells (e :: events) = (replayEvent? cells e).bind (replay? · events) :=
  List.foldlM_cons

theorem replay?_append (cells : Array UInt16) (before after : List Event) :
    replay? cells (before ++ after) = (replay? cells before).bind (replay? · after) :=
  List.foldlM_append

theorem replayEvent?_of_change?_eq_none {e : Event} (he : e.change? = none)
    (cells : Array UInt16) : replayEvent? cells e = some cells := by
  rw [replayEvent?, he]

theorem replay?_of_change?_eq_none {events : List Event} (h : ∀ e ∈ events, e.change? = none)
    (cells : Array UInt16) : replay? cells events = some cells := by
  induction events with
  | nil => rfl
  | cons e events ih =>
    rw [replay?_cons, replayEvent?_of_change?_eq_none (h e List.mem_cons_self)]
    exact ih fun later hlater => h later (List.mem_cons_of_mem e hlater)

theorem replayEvent?_of_held {e : Event} {x : Nat} {old new : UInt16}
    (he : e.change? = some (x, old, new)) {cells : Array UInt16} (hheld : cells[x]? = some old) :
    replayEvent? cells e = some (cells.setIfInBounds x new) := by
  rw [replayEvent?, he]
  exact if_pos hheld

/-! ## What an operation reports of the holding registers -/

/-- What an event says of a holding register, but for the value it held before. -/
inductive Mark where
  | written (address : Nat) (new : UInt16)
  | ignored (address : Nat) (attempted : UInt16)
  | advanced (address : Nat)
  deriving DecidableEq, Repr

/-- The event is about a holding register that was written, was spared or moved by itself. -/
def Event.mark? : Event → Option Mark
  | .registerWritten x _ new => some (.written x new)
  | .counterWriteIgnored x attempted => some (.ignored x attempted)
  | .counterUpdated address _ _ => some (.advanced address.toNat)
  | _ => none

/-- The event tells that a write over the counter was ignored. -/
def Event.isIgnoredWrite : Event → Bool
  | .counterWriteIgnored .. => true
  | _ => false

/-- The mark tells that a write over the counter was ignored. -/
def Mark.isIgnored : Mark → Bool
  | .ignored .. => true
  | _ => false

/-- The marks among events. -/
def marks (events : List Event) : List Mark :=
  events.filterMap Event.mark?

theorem marks_append (before after : List Event) :
    marks (before ++ after) = marks before ++ marks after :=
  List.filterMap_append

/-- The range of the write covers the cell `x` of the table `k`. -/
def Write.Covers (w : Write) (k : TableKind) (x : Nat) : Prop :=
  w.kind = k ∧ w.start ≤ x ∧ x < w.start + w.values.length

instance (w : Write) (k : TableKind) (x : Nat) : Decidable (w.Covers k x) :=
  inferInstanceAs (Decidable (_ ∧ _))

/-- What is reported of a write: one mark for each holding register in ascending order, which tells
that the register was written or, at the counter, that it was spared. -/
def Write.marks (s : DeviceSettings) : Write → List Mark
  | ⟨.holding, start, values⟩ =>
    (values.zipIdx start).map fun (v, x) =>
      if x = s.counterAddress.toNat then .ignored x v else .written x v
  | _ => []

/-- What is reported of an operation: the writes that it carries out, or a step of the counter. -/
def Operation.marks (s : DeviceSettings) (op : Operation) : List Mark :=
  if op.isIncrement then [.advanced s.counterAddress.toNat]
  else (op.writes s).flatMap (·.marks s)

theorem Write.marks_cons (s : DeviceSettings) (x : Nat) (v : UInt16) (vs : List UInt16) :
    (Write.mk .holding x (v :: vs)).marks s =
      (if x = s.counterAddress.toNat then .ignored x v else .written x v) ::
        (Write.mk .holding (x + 1) vs).marks s :=
  rfl

theorem Write.marks_of_ne {k : TableKind} (hk : k ≠ .holding) (s : DeviceSettings) (x : Nat)
    (values : List k.Cell) : (Write.mk k x values).marks s = [] := by
  cases k with
  | holding => exact absurd rfl hk
  | input | coil | discrete => rfl

/-- A write is ignored once if it covers the counter, and otherwise never. -/
theorem Write.countP_isIgnored_marks (s : DeviceSettings) (w : Write) :
    (w.marks s).countP (·.isIgnored) =
      if w.Covers .holding s.counterAddress.toNat then 1 else 0 := by
  rcases w with ⟨k, start, values⟩
  by_cases hk : k = .holding
  · subst hk
    -- By recursion on the values: the head is at `start`, and the counter is there or later.
    induction values generalizing start with
    | nil =>
      have hempty : ¬ (Write.mk .holding start []).Covers .holding s.counterAddress.toNat := by
        rintro ⟨-, hlow, hhigh⟩
        exact absurd hhigh (Nat.not_lt.mpr hlow)
      rw [if_neg hempty]
      rfl
    | cons v vs ih =>
      have hrange : (Write.mk .holding start (v :: vs)).Covers .holding s.counterAddress.toNat ↔
          start = s.counterAddress.toNat ∨
            (Write.mk .holding (start + 1) vs).Covers .holding s.counterAddress.toNat := by
        simp only [Covers, List.length_cons, true_and]
        omega
      rw [marks_cons, List.countP_cons, ih]
      by_cases hstart : start = s.counterAddress.toNat
      · have hlater :
            ¬ (Write.mk .holding (start + 1) vs).Covers .holding s.counterAddress.toNat := by
          rintro ⟨-, hlow, -⟩
          exact absurd hlow (by simp only; omega)
        rw [if_pos hstart, if_neg hlater, if_pos (hrange.mpr (Or.inl hstart))]
        rfl
      · simp only [hrange, hstart, false_or]
        rfl
  · have hnot : ¬ (Write.mk k start values).Covers .holding s.counterAddress.toNat :=
      fun h => hk h.1
    rw [marks_of_ne hk, if_neg hnot]
    rfl

theorem countP_isIgnored_writes (s : DeviceSettings) (writes : List Write) :
    (writes.flatMap (·.marks s)).countP (·.isIgnored) =
      writes.countP (·.Covers .holding s.counterAddress.toNat) := by
  induction writes with
  | nil => rfl
  | cons w writes ih =>
    rw [List.flatMap_cons, List.countP_append, ih, w.countP_isIgnored_marks, List.countP_cons,
      Nat.add_comm]
    simp only [decide_eq_true_eq]

theorem countP_isIgnored_marks (s : DeviceSettings) (ops : List Operation) :
    (ops.flatMap (·.marks s)).countP (·.isIgnored) =
      (history s ops).countP (·.Covers .holding s.counterAddress.toNat) := by
  induction ops with
  | nil => rfl
  | cons op ops ih =>
    have hop : (op.marks s).countP (·.isIgnored) =
        (op.writes s).countP (·.Covers .holding s.counterAddress.toNat) := by
      cases op with
      | increment => rfl
      | _ => exact countP_isIgnored_writes s _
    have hhistory : history s (op :: ops) = op.writes s ++ history s ops := rfl
    rw [List.flatMap_cons, List.countP_append, hop, ih, hhistory, List.countP_append]

theorem countP_isIgnoredWrite_eq (events : List Event) :
    events.countP (·.isIgnoredWrite) = (marks events).countP (·.isIgnored) := by
  rw [marks, List.countP_filterMap]
  refine List.countP_congr fun e _ => ?_
  cases e <;> exact Iff.rfl

namespace Device

variable {k : TableKind} {d : Device} {s : DeviceSettings}

/-! ## The journal of a run replays -/

/-- The events of the outcome take the holding registers of the device to those that are left. -/
def Replays {α : Type} (d : Device) (o : Outcome Device α) : Prop :=
  replay? d.memory.holding o.events = some o.state.memory.holding

theorem Replays.andTry {ε α β : Type} {o : Outcome Device (Except ε α)}
    {next : α → Device → Outcome Device (Except ε β)} (ho : d.Replays o)
    (hnext : ∀ (a : α) (e : Device), e.Replays (next a e)) : d.Replays (o.andTry next) := by
  have happend := replay?_append d.memory.holding o.events
  unfold Replays at ho
  cases hanswer : o.answer with
  | error refusal =>
    simp only [Replays, Outcome.andTry, Outcome.andThen, hanswer]
    rw [happend, ho]
    rfl
  | ok a =>
    simp only [Replays, Outcome.andTry, Outcome.andThen, hanswer]
    rw [happend, ho]
    exact hnext a o.state

/-- Registers that are written one by one are replayed one by one. -/
theorem replay?_writeRegisters? {shielded : Nat → Bool} {m last : Memory} {x : Nat}
    {values : List UInt16} {events : List Event}
    (hwrite : m.writeRegisters? shielded x values = some (last, events)) :
    replay? m.holding events = some last.holding := by
  induction values generalizing m x events with
  | nil =>
    cases hwrite
    rfl
  | cons v vs ih =>
    rw [Memory.writeRegisters?] at hwrite
    split at hwrite
    · -- A shielded register is passed over, and its event tells of no change.
      rcases Option.bind_eq_some_iff.mp hwrite with ⟨⟨rest, later⟩, hlater, hdone⟩
      cases hdone
      rw [replay?_cons, replayEvent?_of_change?_eq_none rfl]
      exact ih hlater
    · rcases Option.bind_eq_some_iff.mp hwrite with ⟨old, hold, hwrite⟩
      rcases Option.bind_eq_some_iff.mp hwrite with ⟨next, hstore, hwrite⟩
      rcases Option.bind_eq_some_iff.mp hwrite with ⟨⟨rest, later⟩, hlater, hdone⟩
      cases hdone
      have hnext : next.holding = m.holding.setIfInBounds x v := by
        rw [Memory.store?] at hstore
        split at hstore
        · cases hstore
          rfl
        · cases hstore
      have hheld : m.holding[x]? = some old := hold
      rw [replay?_cons, replayEvent?_of_held (e := .registerWritten x old v) rfl hheld]
      exact hnext ▸ ih hlater

theorem replays_access (d : Device) (unitId : UInt8) (a : Access k) :
    d.Replays (d.access unitId a) := by
  cases hrefusal : d.refusal? unitId a.start a.quantity with
  | some refusal =>
    rw [access_of_refusal hrefusal]
    cases refusal <;> rfl
  | none =>
    rw [access, hrefusal]
    cases a with
    | read start quantity => rfl
    | write writable start values =>
      have hrange := le_size_of_refusal?_eq_none hrefusal
      cases k with
      | holding => exact replay?_writeRegisters? (writeRegisters?_eq d hrange)
      | input | coil | discrete => rfl

/-- On behalf of a client, an access reports the same and perhaps that it was carried out. -/
theorem events_handle (d : Device) (unitId : UInt8) (a : Access k) :
    ∃ last, (d.handle unitId a).events = (d.access unitId a).events ++ last ∧
      marks last = [] ∧ ∀ e ∈ last, e.change? = none := by
  cases hanswer : (d.access unitId a).answer with
  | error refusal =>
    refine ⟨[], ?_, rfl, fun e he => nomatch he⟩
    simp only [handle, hanswer, List.append_nil]
  | ok cells =>
    refine ⟨[.accessHandled k a.writes unitId a.start a.quantity], ?_, rfl, ?_⟩
    · simp only [handle, hanswer]
    · intro e he
      cases List.mem_singleton.mp he
      rfl

theorem replays_handle (d : Device) (unitId : UInt8) (a : Access k) :
    d.Replays (d.handle unitId a) := by
  have haccess := d.replays_access unitId a
  rcases d.events_handle unitId a with ⟨last, hevents, -, hlast⟩
  unfold Replays at haccess ⊢
  rw [state_handle, hevents, replay?_append, haccess]
  exact replay?_of_change?_eq_none hlast _

theorem replays_serve (d : Device) (unitId : UInt8) (request : Request) :
    d.Replays (d.serve unitId request) := by
  cases request with
  | readWriteMultipleRegisters readStart readQuantity writeStart values =>
    exact (d.replays_handle unitId _).andTry fun _ e => e.replays_handle unitId _
  | writeMultipleCoils start values | writeMultipleRegisters start values =>
    rw [serve]
    split
    · rfl
    · exact d.replays_handle unitId _
  | maskWriteRegister | reportServerId | custom => rfl
  | _ => exact d.replays_handle unitId _

/-- The register shows the counter, so the old value of the counter is what the register held. -/
theorem Realizes.replays_increment (h : d.Realizes s) {n : Nat} (hcounter : CounterAt s n d) :
    d.Replays d.increment := by
  have hheld : d.memory.holding[d.counterAddress.toNat]? = some d.memory.counter := by
    have hvalue : d.memory.counter = counterValue n := hcounter.counter_eq
    rw [hvalue, h.counterAddress_eq]
    exact hcounter.register_eq
  have hupdate := replayEvent?_of_held (e := .counterUpdated d.counterAddress d.memory.counter
    (counterAfter d.memory.counter)) rfl hheld
  unfold Replays Device.increment
  dsimp only
  split
  · rw [List.singleton_append, replay?_cons, replayEvent?_of_change?_eq_none rfl]
    exact (replay?_cons ..).trans (by rw [hupdate]; rfl)
  · exact (replay?_cons ..).trans (by rw [hupdate]; rfl)

theorem Realizes.replays_apply (h : d.Realizes s) {n : Nat} (hcounter : CounterAt s n d)
    (op : Operation) : d.Replays (d.apply op) := by
  cases op with
  | access k unitId a => exact d.replays_access unitId a
  | handle k unitId a => exact d.replays_handle unitId a
  | serve unitId request => exact d.replays_serve unitId request
  | increment => exact h.replays_increment hcounter
  | counter => rfl

theorem Realizes.replays_run (h : d.Realizes s) {n : Nat} (hcounter : CounterAt s n d)
    (ops : List Operation) : d.Replays (d.run ops) := by
  -- Each operation is replayed on the registers that the operations before it left.
  induction ops generalizing d n with
  | nil => rfl
  | cons op ops ih =>
    have hfirst := h.replays_apply hcounter op
    have hrest := ih (h.apply op) (hcounter.apply h op)
    have hevents : (d.run (op :: ops)).events =
        (d.apply op).events ++ ((d.apply op).state.run ops).events := rfl
    unfold Replays at hfirst hrest ⊢
    rw [hevents, replay?_append, hfirst]
    exact hrest

/-! ## Each register has its turn in the journal -/

theorem marks_writeEvents (haddress : d.counterAddress = s.counterAddress) (start : Nat)
    (values : List k.Cell) :
    marks (d.writeEvents k start values) = (Write.mk k start values).marks s := by
  cases k with
  | holding =>
    induction values generalizing start with
    | nil => rfl
    | cons v vs ih =>
      have hshields : d.shields .holding start = true ↔ start = s.counterAddress.toNat := by
        simp [shields, haddress]
      rw [writeEvents_cons, Write.marks_cons, ← ih (start + 1)]
      by_cases hstart : start = s.counterAddress.toNat
      · rw [if_pos (hshields.mpr hstart), if_pos hstart]
        rfl
      · rw [if_neg fun hshield => hstart (hshields.mp hshield), if_neg hstart]
        rfl
  | input | coil | discrete => rfl

theorem marks_refusal (k : TableKind) (refusal : Refusal) : marks [refusal.event k] = [] := by
  cases refusal <;> rfl

/-- A refused access says nothing of the registers, and one that is carried out what its write
says. -/
theorem Realizes.marks_access (h : d.Realizes s) (a : Attempt) :
    marks (d.access a.unitId a.access).events = (carriedOut s [a]).flatMap (·.marks s) := by
  by_cases ha : a.Admitted s
  · have hrefusal := (h.refusal?_eq_none_iff a.unitId a.access.start a.access.quantity).mpr ha
    rw [carriedOut_singleton ha, Device.access, hrefusal]
    rcases a with ⟨k, unitId, access⟩
    cases access with
    | read start quantity => rfl
    | write writable start values =>
      have hmarks := marks_writeEvents (k := k) h.counterAddress_eq start.toNat values
      exact hmarks.trans (List.append_nil _).symm
  · cases hrefusal : d.refusal? a.unitId a.access.start a.access.quantity with
    | none => exact absurd ((h.refusal?_eq_none_iff ..).mp hrefusal) ha
    | some refusal =>
      rw [access_of_refusal hrefusal, carriedOut_cons_of_not_admitted ha]
      exact marks_refusal a.kind refusal

theorem marks_handle (d : Device) (unitId : UInt8) (a : Access k) :
    marks (d.handle unitId a).events = marks (d.access unitId a).events := by
  rcases d.events_handle unitId a with ⟨last, hevents, hlast, -⟩
  rw [hevents, marks_append, hlast, List.append_nil]

theorem Realizes.marks_handle_of (h : d.Realizes s) (a : Attempt) :
    marks (d.handle a.unitId a.access).events = (carriedOut s [a]).flatMap (·.marks s) :=
  (d.marks_handle a.unitId a.access).trans (h.marks_access a)

/-- Of a write and a read after it, only the write is marked. -/
theorem Realizes.marks_readWrite (h : d.Realizes s) (unitId : UInt8)
    (readStart readQuantity writeStart : UInt16) (values : List UInt16) :
    marks (d.serve unitId
        (.readWriteMultipleRegisters readStart readQuantity writeStart values)).events =
      (carriedOut s ((Request.readWriteMultipleRegisters readStart readQuantity writeStart
        values).attempts unitId)).flatMap (·.marks s) := by
  let writing : Attempt :=
    ⟨.holding, unitId, .write TableKind.writable_holding writeStart values⟩
  let reading : Attempt := ⟨.holding, unitId, .read readStart readQuantity⟩
  have hwrite := h.marks_handle_of writing
  by_cases hadmitted : writing.Admitted s
  · have hanswer := (answer_handle d unitId writing.access).trans
      (h.answer_access_of_admits hadmitted)
    have hlater : (d.handle unitId writing.access).state.Realizes s := by
      rw [state_handle]
      exact h.access unitId _
    have hread := hlater.marks_handle_of reading
    have hattempts : carriedOut s ((Request.readWriteMultipleRegisters readStart readQuantity
        writeStart values).attempts unitId) = carriedOut s [writing] ++ carriedOut s [reading] :=
      carriedOut_cons_of_admitted hadmitted [reading]
    rw [hattempts, List.flatMap_append, ← hwrite, ← hread, ← marks_append]
    simp only [serve, reply, Outcome.map, Outcome.andTry, Outcome.andThen]
    rw [hanswer]
  · have hattempts : carriedOut s ((Request.readWriteMultipleRegisters readStart readQuantity
        writeStart values).attempts unitId) = carriedOut s [writing] :=
      (carriedOut_cons_of_not_admitted hadmitted [reading]).trans
        (carriedOut_cons_of_not_admitted hadmitted []).symm
    rw [hattempts, ← hwrite]
    cases hanswer : (d.handle unitId writing.access).answer with
    | ok cells =>
      rw [answer_handle] at hanswer
      exact absurd (h.admits_of_answer_access hanswer).1 hadmitted
    | error refusal =>
      simp only [serve, reply, Outcome.map, Outcome.andTry, Outcome.andThen]
      rw [hanswer]
      exact congrArg marks (List.append_nil _)

theorem Realizes.marks_serve (h : d.Realizes s) (unitId : UInt8) (request : Request) :
    marks (d.serve unitId request).events =
      (carriedOut s (request.attempts unitId)).flatMap (·.marks s) := by
  cases request with
  | readWriteMultipleRegisters readStart readQuantity writeStart values =>
    exact h.marks_readWrite unitId readStart readQuantity writeStart values
  | writeMultipleCoils start values =>
    rw [serve, Request.attempts]
    split
    · rfl
    · exact h.marks_handle_of ⟨.coil, unitId, _⟩
  | writeMultipleRegisters start values =>
    rw [serve, Request.attempts]
    split
    · rfl
    · exact h.marks_handle_of ⟨.holding, unitId, _⟩
  | maskWriteRegister | reportServerId | custom => rfl
  | readCoils | writeSingleCoil => exact h.marks_handle_of ⟨.coil, unitId, _⟩
  | readDiscreteInputs => exact h.marks_handle_of ⟨.discrete, unitId, _⟩
  | readHoldingRegisters | writeSingleRegister => exact h.marks_handle_of ⟨.holding, unitId, _⟩
  | readInputRegisters => exact h.marks_handle_of ⟨.input, unitId, _⟩

theorem Realizes.marks_apply (h : d.Realizes s) (op : Operation) :
    marks (d.apply op).events = op.marks s := by
  cases op with
  | access k unitId a => exact h.marks_access ⟨k, unitId, a⟩
  | handle k unitId a => exact h.marks_handle_of ⟨k, unitId, a⟩
  | serve unitId request => exact h.marks_serve unitId request
  | increment =>
    rw [Operation.marks, ← h.counterAddress_eq]
    show marks d.increment.events = _
    unfold Device.increment
    dsimp only
    split <;> rfl
  | counter => rfl

theorem Realizes.marks_run (h : d.Realizes s) (ops : List Operation) :
    marks (d.run ops).events = ops.flatMap (·.marks s) := by
  induction ops generalizing d with
  | nil => rfl
  | cons op ops ih =>
    have hevents : (d.run (op :: ops)).events =
        (d.apply op).events ++ ((d.apply op).state.run ops).events := rfl
    rw [hevents, marks_append, h.marks_apply, ih (h.apply op), List.flatMap_cons]

end Device

/-- The journal of a run on a device that was built from settings is exact about the holding
registers.  Its changes, in order, take the registers that were built to those at the end, and each
tells rightly what its register held.  Each register of a write that was carried out has its turn in
ascending order, where a write to the counter is ignored, once for each write that covers it.  An
access that is refused says nothing of the registers. -/
theorem journal_replays_registers {s : DeviceSettings} {d : Device} {warnings : List Event}
    (hcreate : Device.create s = .ok (d, warnings)) (ops : List Operation) :
    replay? d.memory.holding (d.run ops).events = some (d.run ops).state.memory.holding ∧
      marks (d.run ops).events = ops.flatMap (·.marks s) ∧
      (d.run ops).events.countP (·.isIgnoredWrite) =
        (history s ops).countP (·.Covers .holding s.counterAddress.toNat) ∧
      ∀ a : Attempt, ¬ a.Admitted s →
        marks ((d.run ops).state.access a.unitId a.access).events = [] ∧
        marks ((d.run ops).state.handle a.unitId a.access).events = [] := by
  have h : d.Realizes s := Device.realizes_of_create hcreate
  have hmarks := h.marks_run ops
  refine ⟨h.replays_run (Device.counterAt_of_create hcreate) ops, hmarks, ?_, ?_⟩
  · rw [countP_isIgnoredWrite_eq, hmarks, countP_isIgnored_marks]
  · intro a ha
    have hnone : (carriedOut s [a]).flatMap (·.marks s) = [] := by
      rw [carriedOut_cons_of_not_admitted ha]
      rfl
    exact ⟨((h.run ops).marks_access a).trans hnone, ((h.run ops).marks_handle_of a).trans hnone⟩

/-- After one increment and a write of three registers around the counter, the journal tells of two
registers that were written and of the counter between them that was not. -/
theorem journal_replays_write_over_counter :
    Device.create fourCells = .ok (fourCellDevice, [.deviceReady 4 1 1]) ∧
      replay? #[0, 0, 0, 9]
        (fourCellDevice.run [.increment, .serve 1 (.writeMultipleRegisters 0 [5, 6, 7])]).events =
          some #[5, 1, 7, 9] ∧
      marks
        (fourCellDevice.run [.increment, .serve 1 (.writeMultipleRegisters 0 [5, 6, 7])]).events =
          [.advanced 1, .written 0 5, .ignored 1 6, .written 2 7] := by
  have hjournal := journal_replays_registers create_fourCells
    [.increment, .serve 1 (.writeMultipleRegisters 0 [5, 6, 7])]
  exact ⟨create_fourCells, hjournal.1, hjournal.2.1⟩

end Fieldbus
