import Fieldbus.Proofs.Device.Accounting
import Fieldbus.Proofs.Device.Counter
import Fieldbus.Proofs.Device.History

/-!
# Independent operations

What a run leaves behind is settled by how many increments it has, by the latest write to each cell,
and by which accesses it made, in whatever order (`Device.state_run_eq_of_create`).  Two operations
are independent if neither changes a cell that lies in a range of the other.  Such operations are
answered alike and leave the same device in either order; a step of the counter leaves the same
device before and after any operation, also one that writes over the counter.
-/

namespace Fieldbus

/-! ## The cells of an operation -/

/-- The range of the access covers the cell `x` of the table `k`. -/
def Attempt.Covers (a : Attempt) (k : TableKind) (x : Nat) : Prop :=
  a.kind = k ∧ a.access.start.toNat ≤ x ∧ x < a.access.start.toNat + a.access.quantity

namespace Operation

variable {s : DeviceSettings} {op op' : Operation} {k : TableKind} {x : Nat}

/-- The accesses that a device with these settings admits for the operation, in order. -/
def admitted (s : DeviceSettings) (op : Operation) : List Attempt :=
  op.attempts.takeWhile fun a => a.Admitted s

/-- The cell lies in a range that the device admits for the operation.  Steps of the counter and
looks at it have the cell that shows it. -/
def Reaches (s : DeviceSettings) (op : Operation) (k : TableKind) (x : Nat) : Prop :=
  (∃ a ∈ op.admitted s, a.Covers k x) ∨
    ((op = .increment ∨ op = .counter) ∧ s.IsCounterCell k x)

/-- The cell lies in a range that the device admits to be written, or shows the counter that the
operation steps. -/
def Changes (s : DeviceSettings) (op : Operation) (k : TableKind) (x : Nat) : Prop :=
  (∃ a ∈ op.admitted s, a.access.writes = true ∧ a.Covers k x) ∨
    (op = .increment ∧ s.IsCounterCell k x)

/-- Neither operation changes a cell that lies in a range of the other. -/
def Independent (s : DeviceSettings) (op op' : Operation) : Prop :=
  ∀ (k : TableKind) (x : Nat),
    ¬ (op.Changes s k x ∧ op'.Reaches s k x) ∧ ¬ (op'.Changes s k x ∧ op.Reaches s k x)

theorem Changes.reaches (h : op.Changes s k x) : op.Reaches s k x := by
  rcases h with ⟨a, ha, -, hcovers⟩ | ⟨hop, hx⟩
  · exact Or.inl ⟨a, ha, hcovers⟩
  · exact Or.inr ⟨Or.inl hop, hx⟩

theorem Independent.symm (h : Independent s op op') : Independent s op' op :=
  fun k x => (h k x).symm

/-- Of two independent operations, at least one leaves the cell alone. -/
theorem Independent.not_changes_or (h : Independent s op op') (k : TableKind) (x : Nat) :
    ¬ op.Changes s k x ∨ ¬ op'.Changes s k x := by
  by_cases hchanges : op.Changes s k x
  · exact Or.inr fun hchanges' => (h k x).1 ⟨hchanges, hchanges'.reaches⟩
  · exact Or.inl hchanges

theorem Independent.not_changes_of_reaches (h : Independent s op op') (hx : op.Reaches s k x) :
    ¬ op'.Changes s k x :=
  fun hchanges => (h k x).2 ⟨hchanges, hx⟩

theorem Reaches.of_first {a : Attempt} {later : List Attempt} (hop : op.attempts = a :: later)
    (ha : a.Admitted s) (hx : a.Covers k x) : op.Reaches s k x := by
  refine Or.inl ⟨a, ?_, hx⟩
  simp [admitted, hop, ha]

theorem Reaches.of_second {a b : Attempt} {later : List Attempt}
    (hop : op.attempts = a :: b :: later) (ha : a.Admitted s) (hb : b.Admitted s)
    (hx : b.Covers k x) : op.Reaches s k x := by
  refine Or.inl ⟨b, ?_, hx⟩
  simp [admitted, hop, ha, hb]

theorem Reaches.covers {a : Attempt} (h : op.Reaches s k x) (hop : op.admitted s = [a]) :
    a.Covers k x := by
  rcases h with ⟨b, hb, hx⟩ | ⟨rfl | rfl, -⟩
  · rw [hop, List.mem_singleton] at hb
    exact hb ▸ hx
  · cases hop
  · cases hop

end Operation

/-- A write gives values to cells that its range covers only. -/
theorem Attempt.covers_of_gives? {a : Attempt} {w : Write} {k : TableKind} {x : Nat}
    (hw : a.write? = some w) (hgives : w.gives? k x ≠ none) :
    a.access.writes = true ∧ a.Covers k x := by
  rcases a with ⟨k', unitId, access⟩
  cases access with
  | read start quantity => cases hw
  | write writable start values =>
    cases hw
    by_cases hk : k' = k
    · subst hk
      rw [Write.gives?_self] at hgives
      by_cases hstart : start.toNat ≤ x
      · rw [if_pos hstart, Ne, List.getElem?_eq_none_iff, Nat.not_le] at hgives
        refine ⟨rfl, rfl, hstart, ?_⟩
        change x < start.toNat + values.length
        omega
      · rw [if_neg hstart] at hgives
        exact absurd rfl hgives
    · exact absurd (Write.gives?_of_ne x hk) hgives

/-- The latest write to a cell that an operation leaves alone is an earlier one. -/
theorem Operation.latest?_writes {s : DeviceSettings} {op : Operation} {k : TableKind} {x : Nat}
    (h : ¬ op.Changes s k x) : latest? (op.writes s) k x = none := by
  rw [latest?, List.findSome?_eq_none_iff]
  intro w hw
  rcases List.mem_filterMap.mp (List.mem_reverse.mp hw) with ⟨a, ha, hwrite⟩
  refine Decidable.not_not.mp fun hgives => h (Or.inl ⟨a, ha, ?_⟩)
  exact Attempt.covers_of_gives? hwrite hgives

namespace Device

variable {k : TableKind} {d e : Device} {s : DeviceSettings}

/-! ## What a run leaves behind -/

theorem Realizes.eq_of_eq (h : d.Realizes s) (h' : e.Realizes s) (hmemory : d.memory = e.memory)
    (hstatistics : d.statistics = e.statistics) : d = e := by
  have hunit : d.unitId = e.unitId := h.unitId_eq.trans h'.unitId_eq.symm
  have hcounter : d.counterAddress = e.counterAddress :=
    h.counterAddress_eq.trans h'.counterAddress_eq.symm
  cases d
  cases e
  cases hunit
  cases hcounter
  cases hmemory
  cases hstatistics
  rfl

/-- Two runs on a new device leave the same device if they have as many increments, the same latest
writes, and the same accesses but for their order. -/
theorem state_run_eq_of_create {warnings : List Event} (hcreate : create s = .ok (d, warnings))
    {ops ops' : List Operation} (hincrements : increments ops = increments ops')
    (hlatest : ∀ k x, latest? (history s ops) k x = latest? (history s ops') k x)
    (hmade : (accessesOf s ops).Perm (accessesOf s ops')) :
    (d.run ops).state = (d.run ops').state := by
  have h : d.Realizes s := realizes_of_create hcreate
  have hcounter := (counterAt_of_create hcreate).run h ops
  have hcounter' := (counterAt_of_create hcreate).run h ops'
  rw [hincrements] at hcounter
  have hmemory : (d.run ops).state.memory = (d.run ops').state.memory := by
    refine Memory.eq_of_cell?_eq ?_ ?_ ?_
    · exact (h.run ops).size_eq.trans (h.run ops').size_eq.symm
    · exact hcounter.counter_eq.trans hcounter'.counter_eq.symm
    · -- The counter goes by the number of increments, and all other cells by the latest writes.
      intro k x
      by_cases hx : s.IsCounterCell k x
      · rcases hx with ⟨rfl, rfl⟩
        exact hcounter.register_eq.trans hcounter'.register_eq.symm
      · rw [h.cell?_run ops hx, h.cell?_run ops' hx, hlatest]
  exact (h.run ops).eq_of_eq (h.run ops') hmemory
    ((count_run_of_create hcreate ops).eq_of_perm (count_run_of_create hcreate ops') hmade)

/-- Two operations whose latest writes do not depend on their order leave the same device in either
order. -/
theorem ReachableFrom.state_run_pair_comm (h : d.ReachableFrom s) {op op' : Operation}
    (hlatest : ∀ k x, (latest? (op'.writes s) k x).or (latest? (op.writes s) k x) =
      (latest? (op.writes s) k x).or (latest? (op'.writes s) k x)) :
    (d.run [op, op']).state = (d.run [op', op]).state := by
  rcases h with ⟨first, warnings, before, hcreate, rfl⟩
  rw [← run_append, ← run_append]
  refine state_run_eq_of_create hcreate ?_ ?_ ?_
  · simp only [increments, List.countP_append, List.countP_cons, List.countP_nil]
    omega
  · intro k x
    simp only [history, List.flatMap_append, List.flatMap_cons, List.flatMap_nil, List.append_nil,
      latest?_append, hlatest]
  · simp only [accessesOf, List.flatMap_append, List.flatMap_cons, List.flatMap_nil,
      List.append_nil]
    exact List.perm_append_comm.append_left _

/-! ## What an operation leaves alone -/

/-- The devices agree on the cells that `p` picks, and on the counter if its cell is among them. -/
structure AgreeOn (s : DeviceSettings) (p : TableKind → Nat → Prop) (d e : Device) : Prop where
  cells : ∀ k x, p k x → d.memory.cell? k x = e.memory.cell? k x
  counter : p .holding s.counterAddress.toNat → d.counter = e.counter

/-- An operation leaves the cells alone that it does not change. -/
theorem ReachableFrom.agreeOn_apply (h : d.ReachableFrom s) (op : Operation) :
    AgreeOn s (fun k x => ¬ op.Changes s k x) d (d.apply op).state := by
  have hrealizes : d.Realizes s := h.realizes
  obtain ⟨n, hcounter⟩ := h.counterAt
  have hafter := hcounter.apply hrealizes op
  -- An operation that leaves the counter cell alone is no increment.
  have hsame : ∀ k x, s.IsCounterCell k x → ¬ op.Changes s k x → increments [op] = 0 := by
    intro k x hx hnot
    cases op with
    | increment => exact absurd (Or.inr ⟨rfl, hx⟩) hnot
    | access | handle | serve | counter => rfl
  constructor
  · intro k x hnot
    by_cases hx : s.IsCounterCell k x
    · rw [hsame k x hx hnot, Nat.add_zero] at hafter
      rcases hx with ⟨rfl, rfl⟩
      exact hcounter.register_eq.trans hafter.register_eq.symm
    · rw [hrealizes.cell?_apply op hx, Operation.latest?_writes hnot, Option.none_or]
  · intro hnot
    rw [hsame _ _ ⟨rfl, rfl⟩ hnot, Nat.add_zero] at hafter
    exact hcounter.counter_eq.trans hafter.counter_eq.symm

/-! ## What the answer of an operation depends on -/

/-- What an access leaves in a cell depends on that cell only. -/
theorem Realizes.cell?_access_congr (hd : d.Realizes s) (he : e.Realizes s) (a : Attempt) {x : Nat}
    (hx : d.memory.cell? k x = e.memory.cell? k x) :
    (d.access a.unitId a.access).state.memory.cell? k x =
      (e.access a.unitId a.access).state.memory.cell? k x := by
  by_cases hcell : s.IsCounterCell k x
  · rw [hd.cell?_access_of_counterCell _ _ hcell, he.cell?_access_of_counterCell _ _ hcell, hx]
  · rw [hd.cell?_access a hcell, he.cell?_access a hcell, hx]

/-- The answer to an access depends on the cells of its range only, if it is admitted. -/
theorem Realizes.answer_access_congr (hd : d.Realizes s) (he : e.Realizes s) (a : Attempt)
    (hcells : a.Admitted s → ∀ x, a.Covers a.kind x →
      d.memory.cell? a.kind x = e.memory.cell? a.kind x) :
    (d.access a.unitId a.access).answer = (e.access a.unitId a.access).answer := by
  rw [hd.answer_access, he.answer_access]
  split
  · rfl
  · rename_i hunit
    split
    · rfl
    · rename_i hrange
      have ha : a.Admitted s := ⟨Decidable.not_not.mp hunit, Nat.not_lt.mp hrange⟩
      refine congrArg Except.ok (Memory.window_congr fun i hi => ?_)
      refine hd.cell?_access_congr he a (hcells ha _ ⟨rfl, ?_, ?_⟩)
      · exact Nat.le_add_right ..
      · exact Nat.add_lt_add_left hi _

theorem answer_reply_congr {α : Type} {o o' : Outcome Device (Except Refusal α)}
    (h : o.answer = o'.answer) (response : α → Response) :
    (reply o response).answer = (reply o' response).answer := by
  simp only [reply, Outcome.map, h]

/-- The only access of a request reaches its range. -/
private theorem Realizes.answer_reply_handle_congr (hd : d.Realizes s) (he : e.Realizes s)
    {op : Operation} {unitId : UInt8} {a : Access k} (hop : op.attempts = [⟨k, unitId, a⟩])
    (h : AgreeOn s (op.Reaches s) d e) (response : List k.Cell → Response) :
    (reply (d.handle unitId a) response).answer = (reply (e.handle unitId a) response).answer := by
  refine answer_reply_congr ?_ response
  rw [answer_handle, answer_handle]
  exact hd.answer_access_congr he ⟨k, unitId, a⟩ fun ha x hx => h.cells k x (.of_first hop ha hx)

/-- A request that writes and reads depends on the range of its write, and on the one of its read
if it comes to that. -/
private theorem Realizes.answer_readWrite_congr (hd : d.Realizes s) (he : e.Realizes s)
    {unitId : UInt8} {readStart readQuantity writeStart : UInt16} {values : List UInt16}
    (h : AgreeOn s (Operation.Reaches s
      (.serve unitId (.readWriteMultipleRegisters readStart readQuantity writeStart values))) d e) :
    (d.serve unitId (.readWriteMultipleRegisters readStart readQuantity writeStart values)).answer =
      (e.serve unitId
        (.readWriteMultipleRegisters readStart readQuantity writeStart values)).answer := by
  let write : Attempt := ⟨.holding, unitId, .write (by decide) writeStart values⟩
  let read : Attempt := ⟨.holding, unitId, .read readStart readQuantity⟩
  have hop : (Operation.serve unitId (.readWriteMultipleRegisters readStart readQuantity writeStart
      values)).attempts = [write, read] := rfl
  have hwrite : (d.access unitId write.access).answer = (e.access unitId write.access).answer :=
    hd.answer_access_congr he write fun ha x hx => h.cells _ x (.of_first hop ha hx)
  rw [serve, serve]
  cases hanswer : (d.access unitId write.access).answer with
  | error refusal =>
    have hd' := (answer_handle d unitId write.access).trans hanswer
    have he' := (answer_handle e unitId write.access).trans (hwrite.symm.trans hanswer)
    rw [answer_reply_andTry_of_error hd', answer_reply_andTry_of_error he']
  | ok cells =>
    have hd' := (answer_handle d unitId write.access).trans hanswer
    have he' := (answer_handle e unitId write.access).trans (hwrite.symm.trans hanswer)
    have hadmitted : write.Admitted s := (hd.admits_of_answer_access hanswer).1
    rw [answer_reply_andTry_of_ok hd', answer_reply_andTry_of_ok he', state_handle, state_handle]
    refine answer_reply_congr ?_ _
    rw [answer_handle, answer_handle]
    -- The read sees what the write left, and that is the same where the devices were the same.
    refine (hd.access _ _).answer_access_congr (he.access _ _) read fun ha x hx => ?_
    exact hd.cell?_access_congr he write (h.cells _ x (.of_second hop hadmitted ha hx))

/-- An operation is answered alike on devices that agree on the cells it reaches. -/
theorem Realizes.answer_apply_congr (hd : d.Realizes s) (he : e.Realizes s) {op : Operation}
    (h : AgreeOn s (op.Reaches s) d e) : (d.apply op).answer = (e.apply op).answer := by
  cases op with
  | access k unitId a =>
    refine congrArg (Answer.cells k) ?_
    exact hd.answer_access_congr he ⟨k, unitId, a⟩ fun ha x hx => h.cells k x (.of_first rfl ha hx)
  | handle k unitId a =>
    refine congrArg (Answer.cells k) ?_
    rw [answer_handle, answer_handle]
    exact hd.answer_access_congr he ⟨k, unitId, a⟩ fun ha x hx => h.cells k x (.of_first rfl ha hx)
  | increment =>
    exact congrArg (fun c => Answer.counter (counterAfter c))
      (h.counter (Or.inr ⟨Or.inl rfl, rfl, rfl⟩))
  | counter => exact congrArg Answer.counter (h.counter (Or.inr ⟨Or.inr rfl, rfl, rfl⟩))
  | serve unitId request =>
    refine congrArg Answer.response ?_
    cases request with
    | readWriteMultipleRegisters readStart readQuantity writeStart values =>
      exact hd.answer_readWrite_congr he h
    | writeMultipleCoils start values | writeMultipleRegisters start values =>
      by_cases hlong : maxWriteQuantity < values.length
      · rw [serve, serve, if_pos hlong, if_pos hlong]
        rfl
      · rw [serve, serve, if_neg hlong, if_neg hlong]
        refine hd.answer_reply_handle_congr he ?_ h _
        exact if_neg hlong
    | maskWriteRegister | reportServerId | custom => rfl
    | _ => exact hd.answer_reply_handle_congr he rfl h _

/-- An operation is answered the same after one that does not depend on it. -/
theorem ReachableFrom.answer_apply_of_independent (h : d.ReachableFrom s) {op op' : Operation}
    (hindependent : Operation.Independent s op op') :
    ((d.apply op').state.apply op).answer = (d.apply op).answer := by
  have hleft := h.agreeOn_apply op'
  refine (h.realizes.apply op').answer_apply_congr h.realizes ⟨?_, ?_⟩
  · intro k x hx
    exact (hleft.cells k x (hindependent.not_changes_of_reaches hx)).symm
  · intro hx
    exact (hleft.counter (hindependent.not_changes_of_reaches hx)).symm

end Device

/-! ## Operations in either order -/

/-- On every device that can be reached, two independent operations are answered alike in either
order and leave the same device: the same tables, counter and statistics.  A step of the counter and
any operation whatever leave the same device in either order. -/
theorem independent_operations_commute {s : DeviceSettings} {d : Device} (h : d.ReachableFrom s) :
    (∀ op op' : Operation, Operation.Independent s op op' →
      ∃ answer answer' : Answer,
        (d.run [op, op']).answer = [answer, answer'] ∧
        (d.run [op', op]).answer = [answer', answer] ∧
        (d.run [op, op']).state = (d.run [op', op]).state) ∧
    ∀ op : Operation, (d.run [.increment, op]).state = (d.run [op, .increment]).state := by
  constructor
  · intro op op' hindependent
    refine ⟨(d.apply op).answer, (d.apply op').answer, ?_, ?_, ?_⟩
    · exact congrArg (fun later => [(d.apply op).answer, later])
        (h.answer_apply_of_independent hindependent.symm)
    · exact congrArg (fun later => [(d.apply op').answer, later])
        (h.answer_apply_of_independent hindependent)
    · -- At most one of the two writes to a cell, so that it does not matter which comes last.
      refine h.state_run_pair_comm fun k x => ?_
      rcases hindependent.not_changes_or k x with hnot | hnot
      · rw [Operation.latest?_writes hnot, Option.or_none, Option.none_or]
      · rw [Operation.latest?_writes hnot, Option.or_none, Option.none_or]
  · intro op
    have hnone : ∀ k x, latest? (Operation.writes s .increment) k x = none := fun _ _ => rfl
    refine h.state_run_pair_comm fun k x => ?_
    rw [hnone, Option.or_none, Option.none_or]

/-- A request that writes one register and is refused its read, and a write to other registers; and
a step of the counter with a write over it. -/
theorem refused_read_and_write_commute :
    fourCellDevice.ReachableFrom fourCells ∧
      let half : Operation := .serve 1 (.readWriteMultipleRegisters 9 9 0 [5])
      let write : Operation := .handle .holding 1 (.write (by decide) 2 [6, 7])
      Operation.Independent fourCells half write ∧
        (fourCellDevice.run [half, write]).answer =
          [.response (.error .illegalDataAddress), .cells .holding (.ok [6, 7])] ∧
        (fourCellDevice.run [half, write]).state = (fourCellDevice.run [write, half]).state ∧
        let covering : Operation := .access .holding 1 (.write (by decide) 0 [5, 6, 7])
        (fourCellDevice.run [.increment, covering]).state =
          (fourCellDevice.run [covering, .increment]).state := by
  have hreachable : fourCellDevice.ReachableFrom fourCells :=
    ⟨fourCellDevice, _, [], create_fourCells, rfl⟩
  refine ⟨hreachable, ?_⟩
  intro half write
  have hhalf : half.admitted fourCells = [⟨.holding, 1, .write (by decide) 0 [5]⟩] := rfl
  have hwrite : write.admitted fourCells = [⟨.holding, 1, .write (by decide) 2 [6, 7]⟩] := rfl
  have hindependent : Operation.Independent fourCells half write := by
    intro k x
    constructor
    · rintro ⟨hchanges, hreaches⟩
      have hbelow : x < 1 := (hchanges.reaches.covers hhalf).2.2
      have habove : 2 ≤ x := (hreaches.covers hwrite).2.1
      omega
    · rintro ⟨hchanges, hreaches⟩
      have hbelow : x < 1 := (hreaches.covers hhalf).2.2
      have habove : 2 ≤ x := (hchanges.reaches.covers hwrite).2.1
      omega
  rcases (independent_operations_commute hreachable).1 half write hindependent
    with ⟨-, -, -, -, hstate⟩
  exact ⟨hindependent, rfl, hstate, (independent_operations_commute hreachable).2 _⟩

end Fieldbus
