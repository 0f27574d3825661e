import Fieldbus.Proofs.Device.Observation

/-!
# The live counter

The counter is kept twice, as a number of its own and in the holding register that shows it.  Seeds
and writes leave both alone, and only an increment moves them, both at once.  After `n` increments
they are `counterValue n`: zero before the first, and from then on a cycle through 1 to 65535.
-/

namespace Fieldbus

/-- The value of the live counter after `n` increments. -/
def counterValue (n : Nat) : UInt16 :=
  if n = 0 then 0 else (1 + (n - 1) % 65535).toUInt16

/-- The number of increments in a run. -/
def increments (ops : List Operation) : Nat :=
  ops.countP (·.isIncrement)

theorem increments_cons (op : Operation) (ops : List Operation) :
    increments (op :: ops) = increments [op] + increments ops := by
  simp only [increments, List.countP_cons, List.countP_nil]
  omega

theorem toNat_counterValue (n : Nat) :
    (counterValue n).toNat = if n = 0 then 0 else 1 + (n - 1) % 65535 := by
  unfold counterValue
  split
  · rfl
  · have hlt : (n - 1) % 65535 < 65535 := Nat.mod_lt _ (by decide)
    exact toNat_toUInt16_of_le (by omega)

/-- Zero is seen before the first increment only. -/
theorem counterValue_eq_zero_iff (n : Nat) : counterValue n = 0 ↔ n = 0 := by
  rw [← UInt16.toNat_inj, toNat_counterValue]
  split
  · simp_all
  · simp_all

/-- One more increment goes on to the next value of the cycle. -/
theorem counterAfter_counterValue (n : Nat) :
    Device.counterAfter (counterValue n) = counterValue (n + 1) := by
  have hvalue := toNat_counterValue n
  have hnext := toNat_counterValue (n + 1)
  have hsum : (counterValue n + 1).toNat = ((counterValue n).toNat + 1) % 65536 :=
    UInt16.toNat_add _ _
  have hzero : counterValue n + 1 = 0 ↔ (counterValue n).toNat = 65535 := by
    rw [← UInt16.toNat_inj, hsum]
    have hlt := (counterValue n).toNat_lt
    constructor
    · intro h
      have hwrapped : ((counterValue n).toNat + 1) % 65536 = 0 := h
      omega
    · intro h
      rw [h]
      rfl
  rw [← UInt16.toNat_inj, hnext, if_neg (Nat.succ_ne_zero n), Nat.add_sub_cancel,
    Device.counterAfter]
  -- The sum wraps to zero after 65535 only, and there the cycle begins again at one.
  by_cases hlast : (counterValue n).toNat = 65535
  · rw [if_pos (hzero.mpr hlast)]
    rw [hlast] at hvalue
    split at hvalue
    · omega
    · have hcycle : n % 65535 = 0 := by omega
      rw [hcycle]
      rfl
  · rw [if_neg (fun h => hlast (hzero.mp h)), hsum]
    rw [hvalue] at hlast ⊢
    split at hlast
    · simp_all
    · rename_i hn
      rw [if_neg hn]
      omega

namespace Device

variable {d : Device} {s : DeviceSettings}

/-- The counter and the register that shows it both hold the value after `n` increments. -/
structure CounterAt (s : DeviceSettings) (n : Nat) (d : Device) : Prop where
  counter_eq : d.counter = counterValue n
  register_eq : d.memory.cell? .holding s.counterAddress.toNat = some (counterValue n)

theorem CounterAt.access {n : Nat} (hcounter : CounterAt s n d) (h : d.Realizes s)
    (unitId : UInt8) {k : TableKind} (a : Access k) : CounterAt s n (d.access unitId a).state := by
  constructor
  · rw [← hcounter.counter_eq, Device.counter, h.memory_access]
    split
    · exact Memory.counter_accessed ..
    · rfl
  · rw [← hcounter.register_eq]
    exact h.cell?_access_of_counterCell unitId a ⟨rfl, rfl⟩

theorem CounterAt.increment {n : Nat} (hcounter : CounterAt s n d) (h : d.Realizes s) :
    CounterAt s (n + 1) d.increment.state := by
  have hnew : counterAfter d.memory.counter = counterValue (n + 1) := by
    rw [← counterAfter_counterValue, ← hcounter.counter_eq]
    rfl
  have haddress : s.counterAddress.toNat < d.memory.size := by
    rw [h.size_eq]
    exact h.valid.2.2.1
  constructor
  · exact hnew
  · rw [← hnew]
    have hregister := d.memory.cell?_setCounter_self s.counterAddress.toNat
      (counterAfter d.memory.counter) haddress
    rw [← h.counterAddress_eq] at hregister ⊢
    exact hregister

/-- Only increments move the counter. -/
theorem CounterAt.apply {n : Nat} (hcounter : CounterAt s n d) (h : d.Realizes s)
    (op : Operation) :
    CounterAt s (n + increments [op]) (d.apply op).state := by
  rw [state_apply]
  cases op with
  | increment => exact hcounter.increment h
  | _ =>
    -- An access keeps the counter only on a device that realizes the settings, so both are carried.
    refine (tryAll_preserves (P := fun e => e.Realizes s ∧ CounterAt s n e) ?_ _ ⟨h, hcounter⟩).2
    intro e unitId k a he
    exact ⟨he.1.access unitId a, he.2.access he.1 unitId a⟩

theorem CounterAt.run {n : Nat} (hcounter : CounterAt s n d) (h : d.Realizes s)
    (ops : List Operation) : CounterAt s (n + increments ops) (d.run ops).state := by
  -- Each operation leaves another device and another count, on which the rest of the run is made.
  induction ops generalizing d n with
  | nil => exact hcounter
  | cons op ops ih =>
    rw [increments_cons, ← Nat.add_assoc]
    exact ih (hcounter.apply h op) (h.apply op)

/-- The counter starts at zero, whatever was seeded in its register. -/
theorem counterAt_of_create {warnings : List Event}
    (hcreate : create s = .ok (d, warnings)) : CounterAt s 0 d := by
  rcases create_eq_ok hcreate with ⟨hvalid, -, -, hmemory⟩
  constructor
  · rw [Device.counter, hmemory]
    rfl
  · -- The counter is set after the seeds have been laid.
    rw [hmemory]
    refine Memory.cell?_setCounter_self _ _ _ ?_
    rw [Memory.size_applySeeds]
    exact hvalid.2.2.1

theorem ReachableFrom.counterAt (h : d.ReachableFrom s) : ∃ n, CounterAt s n d := by
  rcases h with ⟨first, warnings, ops, hcreate, rfl⟩
  exact ⟨_, (counterAt_of_create hcreate).run (realizes_of_create hcreate) ops⟩

end Device

/-! ## What is seen of the counter -/

/-- In every run on a device that was built from settings, an increment answers with the next value
of the cycle, and everything that shows the counter shows its present value: a look at it, and the
register in every range of holding registers that was read or written.  That value is not zero once
an increment has happened. -/
theorem counter_shown_in_every_run {s : DeviceSettings} {d : Device} {warnings : List Event}
    (hcreate : Device.create s = .ok (d, warnings)) (before after : List Operation)
    (op : Operation) :
    ∃ answer : Answer, (d.run (before ++ op :: after)).answer[before.length]? = some answer ∧
      (op = .increment → answer = .counter (counterValue (increments before + 1))) ∧
      (op = .counter → answer = .counter (counterValue (increments before))) ∧
      (∀ start quantity : Nat, op.Observes .holding start quantity →
        start ≤ s.counterAddress.toNat → s.counterAddress.toNat < start + quantity →
        answer.Succeeded → ∃ cells : List UInt16, answer.Shows .holding cells ∧
          cells[s.counterAddress.toNat - start]? = some (counterValue (increments before))) ∧
      (0 < increments before → counterValue (increments before) ≠ 0) := by
  have hrealizes : (d.run before).state.Realizes s := (Device.realizes_of_create hcreate).run before
  have hcounter : Device.CounterAt s (increments before) (d.run before).state := by
    have hrun := (Device.counterAt_of_create hcreate).run (Device.realizes_of_create hcreate) before
    rwa [Nat.zero_add] at hrun
  refine ⟨_, d.getElem?_answer_run before after op, ?_, ?_, ?_, ?_⟩
  · rintro rfl
    have hnew := (hcounter.increment hrealizes).counter_eq
    exact congrArg Answer.counter hnew
  · rintro rfl
    exact congrArg Answer.counter hcounter.counter_eq
  · -- What is shown is the memory after the operation, and an operation that shows cells is no
    -- increment.
    intro start quantity hobserves hstart hend hsucceeded
    rcases hrealizes.shows_window hobserves hsucceeded with ⟨-, hshows⟩
    refine ⟨_, hshows, ?_⟩
    have hafter := (hcounter.apply hrealizes op).register_eq
    have hnone : increments [op] = 0 := by
      simp [increments, hobserves.isIncrement_eq_false]
    have hoffset : start + (s.counterAddress.toNat - start) = s.counterAddress.toNat := by omega
    rw [Memory.getElem?_window _ _ _ _ (by omega), hoffset, hafter, hnone, Nat.add_zero]
  · intro hpositive hzero
    have hnot := (counterValue_eq_zero_iff _).mp hzero
    omega

/-- A write over the counter after one increment is answered with one in the place of the counter,
though that register was seeded with eight. -/
theorem counter_shown_in_written_range :
    Device.create fourCells = .ok (fourCellDevice, [.deviceReady 4 1 1]) ∧
      (fourCellDevice.run
        [.increment, .access .holding 1 (.write (by decide) 0 [5, 6, 7])]).answer[1]? =
          some (.cells .holding (.ok [5, 1, 7])) ∧
      ∃ cells : List UInt16, (Answer.cells .holding (.ok [5, 1, 7])).Shows .holding cells ∧
        cells[1 - 0]? = some (counterValue 1) := by
  have hanswer : (fourCellDevice.run
      [.increment, .access .holding 1 (.write (by decide) 0 [5, 6, 7])]).answer[1]? =
        some (.cells .holding (.ok [5, 1, 7])) := rfl
  have hshown := counter_shown_in_every_run create_fourCells [.increment] []
    (.access .holding 1 (.write (by decide) 0 [5, 6, 7]))
  rcases hshown with ⟨answer, hrun, -, -, hshows, -⟩
  have heq : answer = .cells .holding (.ok [5, 1, 7]) :=
    Option.some.inj (hrun.symm.trans hanswer)
  subst heq
  exact ⟨create_fourCells, hanswer,
    hshows 0 3 (.access 1 (.write (by decide) 0 [5, 6, 7])) (by decide) (by decide) trivial⟩

end Fieldbus
