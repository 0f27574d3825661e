import Fieldbus.Proofs.Device.Observation

/-!
# The memory as a history of writes

The tables of a device are a function of the writes that were carried out: a cell holds the value
that the latest write covering it gave to it, or what it held when the device was built.  Which
writes were carried out is read off the operations and the settings alone.  The cell that shows the
live counter is left out; `Fieldbus.Proofs.Device.Counter` is about it.
-/

namespace Fieldbus

/-- A write that was carried out: values for neighbouring cells of one table. -/
structure Write where
  kind : TableKind
  start : Nat
  values : List kind.Cell

/-- The value that the write gives to the cell `x` of the table `k`, if its range covers it. -/
def Write.gives? (w : Write) (k : TableKind) (x : Nat) : Option k.Cell :=
  if h : w.kind = k then
    if w.start ≤ x then h ▸ w.values[x - w.start]? else none
  else none

theorem Write.gives?_self (k : TableKind) (start : Nat) (values : List k.Cell) (x : Nat) :
    (Write.mk k start values).gives? k x = if start ≤ x then values[x - start]? else none := by
  simp [gives?]

theorem Write.gives?_of_ne {w : Write} {k : TableKind} (x : Nat) (hk : w.kind ≠ k) :
    w.gives? k x = none := by
  simp [gives?, hk]

/-- The value that the latest write of a history gave to the cell `x` of the table `k`, if any write
covers it. -/
def latest? (history : List Write) (k : TableKind) (x : Nat) : Option k.Cell :=
  history.reverse.findSome? (·.gives? k x)

@[simp] theorem latest?_nil (k : TableKind) (x : Nat) : latest? [] k x = none := rfl

@[simp] theorem latest?_singleton (w : Write) (k : TableKind) (x : Nat) :
    latest? [w] k x = w.gives? k x := by
  simp [latest?]

theorem latest?_append (before after : List Write) (k : TableKind) (x : Nat) :
    latest? (before ++ after) k x = (latest? after k x).or (latest? before k x) := by
  simp [latest?, List.findSome?_append]

/-! ## Which writes are carried out -/

namespace Attempt

/-- What the access writes, if it is a write. -/
def write? : Attempt → Option Write
  | ⟨_, _, .read ..⟩ => none
  | ⟨k, _, .write _ start values⟩ => some ⟨k, start.toNat, values⟩

end Attempt

/-- The writes among accesses that are tried one after the other up to the first refused one. -/
def carriedOut (s : DeviceSettings) (attempts : List Attempt) : List Write :=
  (attempts.takeWhile fun a => a.Admitted s).filterMap Attempt.write?

/-- The writes that a device with these settings carries out for an operation.  They count as soon
as they were admitted, whatever the operation is answered in the end. -/
def Operation.writes (s : DeviceSettings) (op : Operation) : List Write :=
  carriedOut s op.attempts

/-- The writes that a device with these settings carries out in a run, in order. -/
def history (s : DeviceSettings) (ops : List Operation) : List Write :=
  ops.flatMap (·.writes s)

theorem carriedOut_cons_of_admitted {s : DeviceSettings} {a : Attempt} (ha : a.Admitted s)
    (later : List Attempt) :
    carriedOut s (a :: later) = carriedOut s [a] ++ carriedOut s later := by
  simp only [carriedOut, List.takeWhile_cons, ha, decide_true, if_true, List.takeWhile_nil]
  exact List.filterMap_append (l := [a])

theorem carriedOut_cons_of_not_admitted {s : DeviceSettings} {a : Attempt} (ha : ¬ a.Admitted s)
    (later : List Attempt) : carriedOut s (a :: later) = [] := by
  simp [carriedOut, ha]

theorem carriedOut_singleton {s : DeviceSettings} {a : Attempt} (ha : a.Admitted s) :
    carriedOut s [a] = a.write?.toList := by
  simp only [carriedOut, List.takeWhile_cons, ha, decide_true, if_true, List.takeWhile_nil]
  cases hw : a.write? <;> simp [hw]

/-! ## Cells follow the history -/

/-- Laying values moves a cell that is not shielded exactly as the write says. -/
theorem Memory.cell?_lay_eq_gives? {k k' : TableKind} (m : Memory) {shielded : Nat → Bool}
    {start : Nat} {values : List k.Cell} {x : Nat} (hshield : k' = k → shielded x = false)
    (hrange : start + values.length ≤ m.size) :
    (m.lay shielded k start values).cell? k' x =
      ((Write.mk k start values).gives? k' x).or (m.cell? k' x) := by
  by_cases hk : k' = k
  · subst hk
    rw [cell?_lay_self, Write.gives?_self]
    -- Inside the range the two agree on the value, and outside it neither has one.
    by_cases hin : start ≤ x ∧ x < start + values.length
    · have hoffset : x - start < values.length := by omega
      rw [if_pos ⟨hin.1, hin.2, by omega, hshield rfl⟩, if_pos hin.1,
        List.getElem?_eq_getElem hoffset, Option.some_or]
    · have hnone : (if start ≤ x then values[x - start]? else none) = none := by
        split
        · exact List.getElem?_eq_none (by omega)
        · rfl
      rw [if_neg fun hall => hin ⟨hall.1, hall.2.1⟩, hnone, Option.none_or]
  · rw [cell?_lay_of_ne _ _ _ _ _ hk, Write.gives?_of_ne x (Ne.symm hk), Option.none_or]

namespace Device

variable {k : TableKind} {d : Device} {s : DeviceSettings}

/-- One access moves a cell exactly as the write it carries out says. -/
theorem Realizes.cell?_access (h : d.Realizes s) (a : Attempt) {x : Nat}
    (hx : ¬ s.IsCounterCell k x) :
    (d.access a.unitId a.access).state.memory.cell? k x =
      (latest? (carriedOut s [a]) k x).or (d.memory.cell? k x) := by
  rw [h.memory_access]
  -- The settings decide about the access and about its place in the history alike.
  by_cases ha : a.Admitted s
  · have hadmits : s.Admits a.unitId a.access.start a.access.quantity := ha
    have hrange : a.access.start.toNat + a.access.quantity ≤ d.memory.size := by
      rw [h.size_eq]
      exact hadmits.2
    rw [if_pos hadmits, carriedOut_singleton ha]
    rcases a with ⟨k', unitId, access⟩
    cases access with
    | read start quantity => rfl
    | write writable start values =>
      rw [Attempt.write?, Option.toList_some, latest?_singleton]
      refine Memory.cell?_lay_eq_gives? d.memory ?_ hrange
      rintro rfl
      exact (h.shields_eq_false_iff k x).mpr hx
  · have hnot : ¬ s.Admits a.unitId a.access.start a.access.quantity := ha
    rw [if_neg hnot, carriedOut_cons_of_not_admitted ha, latest?_nil, Option.none_or]

theorem Realizes.cell?_tryAll (h : d.Realizes s) (attempts : List Attempt) {x : Nat}
    (hx : ¬ s.IsCounterCell k x) :
    (d.tryAll attempts).memory.cell? k x =
      (latest? (carriedOut s attempts) k x).or (d.memory.cell? k x) := by
  -- A refused access ends the row on both sides: for the device and for the history.
  induction attempts generalizing d with
  | nil => rfl
  | cons a later ih =>
    by_cases ha : a.Admitted s
    · have hanswer := h.answer_access_of_admits ha
      rw [tryAll_cons_of_ok hanswer, ih (h.access a.unitId a.access), h.cell?_access a hx,
        carriedOut_cons_of_admitted ha later, latest?_append, Option.or_assoc]
    · cases hanswer : (d.access a.unitId a.access).answer with
      | ok cells => exact absurd (h.admits_of_answer_access hanswer).1 ha
      | error refusal =>
        rw [tryAll_cons_of_error hanswer, h.cell?_access a hx, carriedOut_cons_of_not_admitted ha,
          carriedOut_cons_of_not_admitted ha]

theorem Realizes.cell?_apply (h : d.Realizes s) (op : Operation) {x : Nat}
    (hx : ¬ s.IsCounterCell k x) :
    (d.apply op).state.memory.cell? k x =
      (latest? (op.writes s) k x).or (d.memory.cell? k x) := by
  rw [state_apply]
  cases op with
  | increment =>
    -- The counter moves in its own cell only.
    have hcell : ¬ (k = .holding ∧ x = d.counterAddress.toNat) := by
      rw [h.counterAddress_eq]
      exact hx
    exact Memory.cell?_setCounter_of_ne d.memory _ _ x hcell
  | _ => exact h.cell?_tryAll _ hx

/-- After a run, a cell holds what the latest write covering it gave to it. -/
theorem Realizes.cell?_run (h : d.Realizes s) (ops : List Operation) {x : Nat}
    (hx : ¬ s.IsCounterCell k x) :
    (d.run ops).state.memory.cell? k x =
      (latest? (history s ops) k x).or (d.memory.cell? k x) := by
  induction ops generalizing d with
  | nil => rfl
  | cons op ops ih =>
    have hrest : (d.run (op :: ops)).state = ((d.apply op).state.run ops).state := rfl
    have hhistory : history s (op :: ops) = op.writes s ++ history s ops := rfl
    rw [hrest, ih (h.apply op), h.cell?_apply op hx, hhistory, latest?_append, Option.or_assoc]

/-- No run changes a table that clients may only read. -/
theorem table_run_of_not_writable (d : Device) (ops : List Operation) (hk : ¬ k.Writable) :
    (d.run ops).state.memory.table k = d.memory.table k := by
  refine run_preserves (P := fun e => e.memory.table k = d.memory.table k) ?_ ?_ ops rfl
  · intro e unitId k' a he
    cases hrefusal : e.refusal? unitId a.start a.quantity with
    | some refusal =>
      rw [access_of_refusal hrefusal]
      exact he
    | none =>
      rw [Device.access, hrefusal]
      cases a with
      | read start quantity => exact he
      | write writable start values =>
        -- The written table is one that clients may write, so it is not this one.
        have hne : k ≠ k' := fun heq => hk (heq ▸ writable)
        exact (Memory.table_lay_of_ne e.memory _ start.toNat values hne).trans he
  · intro e he
    have hne : k ≠ .holding := fun heq => hk (Or.inl heq)
    exact (Memory.table_setCounter_of_ne e.memory _ _ hne).trans he

/-- The cells that a write is answered with are those that a read of any part of its range shows
right after. -/
theorem Realizes.answer_read_after_write (h : d.Realizes s) {unitId : UInt8}
    {writable : k.Writable} {start : UInt16} {values cells : List k.Cell}
    (hwrite : (d.access unitId (.write writable start values)).answer = .ok cells)
    {readStart readQuantity : UInt16} (hstart : start.toNat ≤ readStart.toNat)
    (hend : readStart.toNat + readQuantity.toNat ≤ start.toNat + values.length) :
    ((d.access unitId (.write writable start values)).state.access unitId (k := k)
        (.read readStart readQuantity)).answer =
      .ok ((cells.drop (readStart.toNat - start.toNat)).take readQuantity.toNat) := by
  rcases h.admits_of_answer_access hwrite with ⟨hadmits, rfl⟩
  have hread : s.Admits unitId readStart readQuantity.toNat :=
    ⟨hadmits.1, Nat.le_trans hend hadmits.2⟩
  rw [(h.access unitId _).answer_read hread]
  exact congrArg Except.ok (Memory.window_eq_drop_take _ _ _ _ _ hstart hend)

end Device

/-! ## The tables are a history of writes -/

/-- In every run on a device that was built from settings, an operation that succeeds shows all the
cells of the range it observes in ascending order.  A cell that does not show the counter has the
value that the latest write up to then gave to it, or the value it was built with if there is none.
Tables that clients only read never change, and a read of any part of the range of a write right
after it shows what the write was answered with. -/
theorem shown_cells_eq_latest_writes {s : DeviceSettings} {d : Device} {warnings : List Event}
    (hcreate : Device.create s = .ok (d, warnings)) :
    (∀ (before after : List Operation) (op : Operation) (k : TableKind) (start quantity : Nat),
      op.Observes k start quantity →
      ∃ answer : Answer, (d.run (before ++ op :: after)).answer[before.length]? = some answer ∧
        (answer.Succeeded → ∃ cells : List k.Cell, answer.Shows k cells ∧
          cells.length = quantity ∧
          ∀ i < quantity, ¬ s.IsCounterCell k (start + i) →
            cells[i]? = (latest? (history s (before ++ [op])) k (start + i)).or
              (d.memory.cell? k (start + i)))) ∧
    (∀ (ops : List Operation) (k : TableKind), ¬ k.Writable →
      (d.run ops).state.memory.table k = d.memory.table k) ∧
    (∀ (ops : List Operation) (k : TableKind) (unitId : UInt8) (writable : k.Writable)
      (start : UInt16) (values cells : List k.Cell),
      ((d.run ops).state.access unitId (.write writable start values)).answer = .ok cells →
      ∀ readStart readQuantity : UInt16, start.toNat ≤ readStart.toNat →
        readStart.toNat + readQuantity.toNat ≤ start.toNat + values.length →
        (((d.run ops).state.access unitId (.write writable start values)).state.access unitId
            (k := k) (.read readStart readQuantity)).answer =
          .ok ((cells.drop (readStart.toNat - start.toNat)).take readQuantity.toNat)) := by
  have hrealizes : d.Realizes s := Device.realizes_of_create hcreate
  refine ⟨?_, ?_, ?_⟩
  · -- The window that is shown is that of the memory after the operation, and so is the history.
    intro before after op k start quantity hobserves
    refine ⟨_, d.getElem?_answer_run before after op, fun hsucceeded => ?_⟩
    rcases (hrealizes.run before).shows_window hobserves hsucceeded with ⟨hrange, hshows⟩
    rw [← d.run_concat before op] at hshows
    have hsize : (d.run (before ++ [op])).state.memory.size = s.size :=
      (hrealizes.run (before ++ [op])).size_eq
    refine ⟨_, hshows, Memory.length_window _ _ _ (by omega), ?_⟩
    intro i hi hcell
    rw [Memory.getElem?_window _ _ _ _ hi]
    exact hrealizes.cell?_run (before ++ [op]) hcell
  · intro ops k hk
    exact d.table_run_of_not_writable ops hk
  · intro ops k unitId writable start values cells hwrite readStart readQuantity hstart hend
    exact (hrealizes.run ops).answer_read_after_write hwrite hstart hend

/-- The registers that a request wrote are shown although it was answered with an exception, and the
one with the counter is not among them. -/
theorem latest_write_shown_after_exception :
    Device.create fourCells = .ok (fourCellDevice, [.deviceReady 4 1 1]) ∧
      (fourCellDevice.run
        [.serve 1 (.readWriteMultipleRegisters 9 9 0 [5, 6, 7]),
          .access .holding 1 (.read 0 3)]).answer[1]? = some (.cells .holding (.ok [5, 0, 7])) ∧
      ∃ cells : List UInt16, (Answer.cells .holding (.ok [5, 0, 7])).Shows .holding cells ∧
        cells.length = 3 ∧
        ∀ i < 3, ¬ fourCells.IsCounterCell .holding (0 + i) →
          cells[i]? = (latest?
              (history fourCells
                [.serve 1 (.readWriteMultipleRegisters 9 9 0 [5, 6, 7]),
                  .access .holding 1 (.read 0 3)]) .holding (0 + i)).or
            (fourCellDevice.memory.cell? .holding (0 + i)) := by
  have hanswer : (fourCellDevice.run
      [.serve 1 (.readWriteMultipleRegisters 9 9 0 [5, 6, 7]),
        .access .holding 1 (.read 0 3)]).answer[1]? = some (.cells .holding (.ok [5, 0, 7])) := rfl
  have hshown := (shown_cells_eq_latest_writes create_fourCells).1
    [.serve 1 (.readWriteMultipleRegisters 9 9 0 [5, 6, 7])] []
    (.access .holding 1 (.read 0 3)) .holding 0 3 (.access 1 (.read 0 3))
  rcases hshown with ⟨answer, hrun, hshows⟩
  have heq : answer = .cells .holding (.ok [5, 0, 7]) :=
    Option.some.inj (hrun.symm.trans hanswer)
  subst heq
  exact ⟨create_fourCells, hanswer, hshows trivial⟩

end Fieldbus
