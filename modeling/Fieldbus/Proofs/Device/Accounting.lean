import Fieldbus.Proofs.Device.Exceptions

/-!
# What the statistics count

A device makes the accesses that an operation asks for one after the other, up to and including the
first that it refuses.  Over a whole run the four counters of `Statistics` are the numbers of the
accesses made, of those refused for their unit, of those refused for their range, and of both kinds
of refusals together, each up to the width of a counter.
-/

namespace Fieldbus

/-! ## The accesses that are made -/

namespace Attempt

/-- The access is for another unit. -/
def ForOtherUnit (s : DeviceSettings) (a : Attempt) : Prop :=
  a.unitId ≠ s.unitId

/-- The access is for the unit of the device, and its range ends beyond the tables. -/
def BeyondTables (s : DeviceSettings) (a : Attempt) : Prop :=
  a.unitId = s.unitId ∧ s.size < a.access.start.toNat + a.access.quantity

variable {s : DeviceSettings} {a : Attempt}

instance : Decidable (a.ForOtherUnit s) := inferInstanceAs (Decidable (_ ≠ _))

instance : Decidable (a.BeyondTables s) := inferInstanceAs (Decidable (_ ∧ _))

/-- An access that is not admitted is of one of the two kinds. -/
theorem not_admitted_iff : ¬ a.Admitted s ↔ a.ForOtherUnit s ∨ a.BeyondTables s := by
  rw [Admitted, DeviceSettings.Admits, ForOtherUnit, BeyondTables]
  by_cases hunit : a.unitId = s.unitId
  · simp [hunit]
  · simp [hunit]

/-- No access is of both kinds. -/
theorem not_beyondTables_of_forOtherUnit (h : a.ForOtherUnit s) : ¬ a.BeyondTables s :=
  fun hbeyond => h hbeyond.1

end Attempt

/-- Of accesses that are asked for, the ones that a device with these settings makes: it goes on
after an access that it admits, and ends with one that it refuses. -/
def accessesMade (s : DeviceSettings) : List Attempt → List Attempt
  | [] => []
  | a :: later => if a.Admitted s then a :: accessesMade s later else [a]

namespace Operation

/-- The accesses that a device with these settings makes for the operation, in order. -/
def accesses (s : DeviceSettings) (op : Operation) : List Attempt :=
  accessesMade s op.attempts

/-- The number of accesses that the operation costs on a device with these settings.  A request that
is turned down before any access costs none, and the one that writes and reads costs a second access
when its write is admitted. -/
def accessCount (s : DeviceSettings) : Operation → Nat
  | .access .. | .handle .. => 1
  | .serve unitId (.readWriteMultipleRegisters _ _ writeStart values) =>
    if s.Admits unitId writeStart values.length then 2 else 1
  | .serve _ request => if request.Supported ∧ ¬ request.TooLong then 1 else 0
  | .increment | .counter => 0

end Operation

/-- The accesses that a device with these settings makes in a run, in order. -/
def accessesOf (s : DeviceSettings) (ops : List Operation) : List Attempt :=
  ops.flatMap (·.accesses s)

/-- The number of accesses that the operations of a run cost together. -/
def accessCountOf (s : DeviceSettings) : List Operation → Nat
  | [] => 0
  | op :: ops => op.accessCount s + accessCountOf s ops

section

variable {s : DeviceSettings}

theorem accessesMade_singleton (s : DeviceSettings) (a : Attempt) : accessesMade s [a] = [a] := by
  simp [accessesMade]

theorem length_accessesMade_unless (s : DeviceSettings) (turnedDown : Prop)
    [Decidable turnedDown] (a : Attempt) :
    (accessesMade s (if turnedDown then [] else [a])).length = if turnedDown then 0 else 1 := by
  split
  · rfl
  · rw [accessesMade_singleton]
    rfl

theorem length_accesses (s : DeviceSettings) (op : Operation) :
    (op.accesses s).length = op.accessCount s := by
  cases op with
  | access k unitId a | handle k unitId a =>
    exact congrArg List.length (accessesMade_singleton s ⟨k, unitId, a⟩)
  | serve unitId request =>
    cases request with
    | readWriteMultipleRegisters readStart readQuantity writeStart values =>
      let write : Attempt := ⟨.holding, unitId, .write TableKind.writable_holding writeStart values⟩
      let read : Attempt := ⟨.holding, unitId, .read readStart readQuantity⟩
      have hmade : accessesMade s [write, read] = if write.Admitted s then [write, read]
          else [write] := by
        rw [accessesMade, accessesMade_singleton]
      have hlength : (accessesMade s [write, read]).length =
          if write.Admitted s then 2 else 1 := by
        rw [hmade]
        split <;> rfl
      exact hlength
    | writeMultipleCoils start values | writeMultipleRegisters start values =>
      -- A list that is too long is turned down before its access.
      refine (length_accessesMade_unless s (Device.maxWriteQuantity < values.length) _).trans ?_
      by_cases hlong : Device.maxWriteQuantity < values.length
      · rw [if_pos hlong]
        exact (if_neg fun hcounted => hcounted.2 hlong).symm
      · rw [if_neg hlong]
        exact (if_pos ⟨trivial, hlong⟩).symm
    | maskWriteRegister | reportServerId | custom => rfl
    | _ => exact congrArg List.length (accessesMade_singleton s _)
  | increment | counter => rfl

theorem length_accessesOf (s : DeviceSettings) (ops : List Operation) :
    (accessesOf s ops).length = accessCountOf s ops := by
  induction ops with
  | nil => rfl
  | cons op ops ih =>
    have hmade : accessesOf s (op :: ops) = op.accesses s ++ accessesOf s ops :=
      List.flatMap_cons
    rw [hmade, List.length_append, length_accesses, ih]
    rfl

/-- Nothing is tried after an access that is refused, so there is at most one of them. -/
theorem countP_not_admitted_accessesMade_le (s : DeviceSettings) (attempts : List Attempt) :
    (accessesMade s attempts).countP (fun a => ¬ a.Admitted s) ≤ 1 := by
  induction attempts with
  | nil => exact Nat.zero_le 1
  | cons a later ih =>
    rw [accessesMade]
    split
    · rename_i ha
      simpa [ha] using ih
    · exact List.countP_le_length

/-- The refused accesses are those of the one kind and those of the other. -/
theorem countP_not_admitted (s : DeviceSettings) (made : List Attempt) :
    made.countP (fun a => ¬ a.Admitted s) =
      made.countP (·.ForOtherUnit s) + made.countP (·.BeyondTables s) := by
  induction made with
  | nil => rfl
  | cons a made ih =>
    rw [List.countP_cons, List.countP_cons, List.countP_cons, ih]
    by_cases hunit : a.ForOtherUnit s
    · have hrefused : ¬ a.Admitted s := Attempt.not_admitted_iff.mpr (.inl hunit)
      have hnot := Attempt.not_beyondTables_of_forOtherUnit hunit
      simp [hunit, hrefused, hnot]
      omega
    · have hiff : ¬ a.Admitted s ↔ a.BeyondTables s := by
        rw [Attempt.not_admitted_iff, or_iff_right hunit]
      simp [hunit, hiff]
      omega

end

/-! ## The statistics over accesses -/

/-- The statistics count the accesses `made` and their refusals.  A counter has 64 bits. -/
structure Statistics.Count (s : DeviceSettings) (made : List Attempt) (st : Statistics) :
    Prop where
  requests : st.requests.toNat = made.length % UInt64.size
  identityErrors : st.identityErrors.toNat = made.countP (·.ForOtherUnit s) % UInt64.size
  addressErrors : st.addressErrors.toNat = made.countP (·.BeyondTables s) % UInt64.size
  errors : st.errors.toNat = made.countP (fun a => ¬ a.Admitted s) % UInt64.size

/-- Counters of 64 bits add up as the numbers do that they count. -/
private theorem toNat_counter_add {c c' : UInt64} {n n' : Nat} (h : c.toNat = n % UInt64.size)
    (h' : c'.toNat = n' % UInt64.size) : (c + c').toNat = (n + n') % UInt64.size := by
  have hsum : (c + c').toNat = (c.toNat + c'.toNat) % UInt64.size := UInt64.toNat_add c c'
  rw [hsum, h, h', ← Nat.add_mod]

private theorem toNat_counter_add_one {c : UInt64} {n : Nat} (h : c.toNat = n % UInt64.size) :
    (c + 1).toNat = (n + 1) % UInt64.size :=
  toNat_counter_add h rfl

namespace Statistics.Count

variable {s : DeviceSettings} {made : List Attempt} {st : Statistics} {a : Attempt}

theorem admitted (h : st.Count s made) (ha : a.Admitted s) :
    st.admitted.Count s (made ++ [a]) := by
  have hneither : ¬ (a.ForOtherUnit s ∨ a.BeyondTables s) := by
    rw [← Attempt.not_admitted_iff]
    exact not_not_intro ha
  rcases not_or.mp hneither with ⟨hunit, hrange⟩
  rw [Statistics.admitted]
  constructor
  · simpa using toNat_counter_add_one h.requests
  · simpa [hunit] using h.identityErrors
  · simpa [hrange] using h.addressErrors
  · simpa [ha] using h.errors

theorem refusedForUnit (h : st.Count s made) (ha : a.ForOtherUnit s) :
    st.refusedForUnit.Count s (made ++ [a]) := by
  have hrefused : ¬ a.Admitted s := Attempt.not_admitted_iff.mpr (.inl ha)
  have hrange : ¬ a.BeyondTables s := Attempt.not_beyondTables_of_forOtherUnit ha
  rw [Statistics.refusedForUnit]
  constructor
  · simpa using toNat_counter_add_one h.requests
  · simpa [ha] using toNat_counter_add_one h.identityErrors
  · simpa [hrange] using h.addressErrors
  · simpa [hrefused] using toNat_counter_add_one h.errors

theorem refusedForRange (h : st.Count s made) (ha : a.BeyondTables s) :
    st.refusedForRange.Count s (made ++ [a]) := by
  have hrefused : ¬ a.Admitted s := Attempt.not_admitted_iff.mpr (.inr ha)
  have hunit : ¬ a.ForOtherUnit s := not_not_intro ha.1
  rw [Statistics.refusedForRange]
  constructor
  · simpa using toNat_counter_add_one h.requests
  · simpa [hunit] using h.identityErrors
  · simpa [ha] using toNat_counter_add_one h.addressErrors
  · simpa [hrefused] using toNat_counter_add_one h.errors

/-- The order of the accesses does not matter. -/
theorem eq_of_perm {made' : List Attempt} {st' : Statistics} (h : st.Count s made)
    (h' : st'.Count s made') (hperm : made.Perm made') : st = st' := by
  have hrequests : st.requests = st'.requests := by
    rw [← UInt64.toNat_inj, h.requests, h'.requests, hperm.length_eq]
  have hidentity : st.identityErrors = st'.identityErrors := by
    rw [← UInt64.toNat_inj, h.identityErrors, h'.identityErrors, hperm.countP_eq]
  have haddress : st.addressErrors = st'.addressErrors := by
    rw [← UInt64.toNat_inj, h.addressErrors, h'.addressErrors, hperm.countP_eq]
  have herrors : st.errors = st'.errors := by
    rw [← UInt64.toNat_inj, h.errors, h'.errors, hperm.countP_eq]
  cases st
  cases st'
  cases hrequests
  cases hidentity
  cases haddress
  cases herrors
  rfl

end Statistics.Count

namespace Device

variable {k : TableKind} {d : Device} {s : DeviceSettings} {made : List Attempt}

/-- The device after accesses that are all made, whatever they are answered. -/
def makeAll (d : Device) (made : List Attempt) : Device :=
  made.foldl (fun d a => (d.access a.unitId a.access).state) d

/-- Trying accesses up to the first refusal is making those that the settings tell. -/
theorem Realizes.tryAll_eq_makeAll (h : d.Realizes s) (attempts : List Attempt) :
    d.tryAll attempts = d.makeAll (accessesMade s attempts) := by
  induction attempts generalizing d with
  | nil => rfl
  | cons a later ih =>
    rw [accessesMade]
    split
    · rename_i ha
      rw [tryAll_cons_of_ok (h.answer_access_of_admits ha)]
      exact ih (h.access a.unitId a.access)
    · rename_i ha
      cases hanswer : (d.access a.unitId a.access).answer with
      | ok cells => exact absurd (h.admits_of_answer_access hanswer).1 ha
      | error refusal => exact tryAll_cons_of_error hanswer later

theorem Realizes.statistics_access (h : d.Realizes s) (a : Attempt) :
    (d.access a.unitId a.access).state.statistics =
      if a.ForOtherUnit s then d.statistics.refusedForUnit
      else if a.BeyondTables s then d.statistics.refusedForRange
      else d.statistics.admitted := by
  have hrefusal := h.refusal?_eq a.unitId a.access.start a.access.quantity
  by_cases hunit : a.unitId = s.unitId
  · have hsame : ¬ a.ForOtherUnit s := not_not_intro hunit
    rw [if_neg (not_not_intro hunit)] at hrefusal
    rw [if_neg hsame]
    by_cases hrange : s.size < a.access.start.toNat + a.access.quantity
    · rw [if_pos hrange] at hrefusal
      rw [if_pos ⟨hunit, hrange⟩, access_of_refusal hrefusal]
      rfl
    · have hinside : ¬ a.BeyondTables s := fun hbeyond => hrange hbeyond.2
      rw [if_neg hrange] at hrefusal
      rw [if_neg hinside, Device.access, hrefusal]
      cases a.access <;> rfl
  · have hother : a.ForOtherUnit s := hunit
    rw [if_pos hunit] at hrefusal
    rw [if_pos hother, access_of_refusal hrefusal]
    rfl

/-- One more access is counted as what it is. -/
theorem Realizes.count_access (h : d.Realizes s) (hcount : d.statistics.Count s made)
    (a : Attempt) : (d.access a.unitId a.access).state.statistics.Count s (made ++ [a]) := by
  rw [h.statistics_access]
  split
  · rename_i hunit
    exact hcount.refusedForUnit hunit
  · rename_i hunit
    split
    · rename_i hrange
      exact hcount.refusedForRange hrange
    · rename_i hrange
      have hadmitted : a.Admitted s :=
        Decidable.not_not.mp (mt Attempt.not_admitted_iff.mp (not_or.mpr ⟨hunit, hrange⟩))
      exact hcount.admitted hadmitted

theorem Realizes.count_makeAll (h : d.Realizes s) (hcount : d.statistics.Count s made)
    (more : List Attempt) : (d.makeAll more).statistics.Count s (made ++ more) := by
  -- The accesses made so far grow by the one at the head of the rest.
  induction more generalizing d made with
  | nil =>
    rw [List.append_nil]
    exact hcount
  | cons a more ih =>
    have hstep := h.count_access hcount a
    have hrest := ih (h.access a.unitId a.access) hstep
    rwa [List.append_assoc] at hrest

/-! ## Whole runs -/

/-- An operation is counted by the accesses it makes; a step of the counter is none. -/
theorem Realizes.count_apply (h : d.Realizes s) (hcount : d.statistics.Count s made)
    (op : Operation) : (d.apply op).state.statistics.Count s (made ++ op.accesses s) := by
  rw [state_apply]
  cases op with
  | increment =>
    rw [Operation.accesses, Operation.attempts, accessesMade, List.append_nil]
    exact hcount
  | access k unitId a | handle k unitId a | serve unitId request | counter =>
    change (d.tryAll _).statistics.Count s _
    rw [h.tryAll_eq_makeAll]
    exact h.count_makeAll hcount _

theorem Realizes.count_run (h : d.Realizes s) (hcount : d.statistics.Count s made)
    (ops : List Operation) :
    (d.run ops).state.statistics.Count s (made ++ accessesOf s ops) := by
  induction ops generalizing d made with
  | nil =>
    rw [accessesOf, List.flatMap_nil, List.append_nil]
    exact hcount
  | cons op ops ih =>
    have hrest := ih (h.apply op) (h.count_apply hcount op)
    rwa [List.append_assoc] at hrest

/-- A device starts with nothing counted. -/
theorem statistics_of_create {warnings : List Event} (hcreate : create s = .ok (d, warnings)) :
    d.statistics = {} := by
  cases hvalidate : s.validate with
  | error e => simp [create, hvalidate, bind, Except.bind] at hcreate
  | ok u =>
    simp only [create, hvalidate, bind, Except.bind, pure, Except.pure, Except.ok.injEq,
      Prod.mk.injEq] at hcreate
    rcases hcreate with ⟨rfl, -⟩
    rfl

theorem count_run_of_create {warnings : List Event} (hcreate : create s = .ok (d, warnings))
    (ops : List Operation) : (d.run ops).state.statistics.Count s (accessesOf s ops) := by
  have hstart : d.statistics.Count s [] := by
    rw [statistics_of_create hcreate]
    exact ⟨rfl, rfl, rfl, rfl⟩
  exact (realizes_of_create hcreate).count_run hstart ops

theorem Realizes.run_concat_eq_makeAll (h : d.Realizes s) (before : List Operation)
    {op : Operation} (hop : op.isIncrement = false) :
    (d.run (before ++ [op])).state = (d.run before).state.makeAll (op.accesses s) := by
  have hno : ¬ op.isIncrement = true := by simp [hop]
  rw [run_concat, state_apply, if_neg hno, (h.run before).tryAll_eq_makeAll]
  rfl

/-- One more operation adds the errors of the one access that it may be refused. -/
theorem errors_run_concat {warnings : List Event} (hcreate : create s = .ok (d, warnings))
    (before : List Operation) (op : Operation) :
    ∃ refused ≤ 1, (d.run (before ++ [op])).state.statistics.errors =
      (d.run before).state.statistics.errors + UInt64.ofNat refused := by
  let refused := (op.accesses s).countP fun a => ¬ a.Admitted s
  have hle : refused ≤ 1 := countP_not_admitted_accessesMade_le s op.attempts
  have hbefore := (count_run_of_create hcreate before).errors
  have hafter := (count_run_of_create hcreate (before ++ [op])).errors
  have hmade : accessesOf s (before ++ [op]) = accessesOf s before ++ op.accesses s := by
    simp [accessesOf]
  have hsum : (accessesOf s (before ++ [op])).countP (fun a => ¬ a.Admitted s) =
      (accessesOf s before).countP (fun a => ¬ a.Admitted s) + refused := by
    rw [hmade, List.countP_append]
  have hrefused : (UInt64.ofNat refused).toNat = refused % UInt64.size := UInt64.toNat_ofNat'
  refine ⟨refused, hle, UInt64.toNat_inj.mp ?_⟩
  rw [hafter, hsum, toNat_counter_add hbefore hrefused]

theorem errors_run_eq {warnings : List Event} (hcreate : create s = .ok (d, warnings))
    (ops : List Operation) :
    (d.run ops).state.statistics.errors =
      (d.run ops).state.statistics.identityErrors + (d.run ops).state.statistics.addressErrors := by
  have hcount := count_run_of_create hcreate ops
  refine UInt64.toNat_inj.mp ?_
  rw [hcount.errors, countP_not_admitted,
    toNat_counter_add hcount.identityErrors hcount.addressErrors]

theorem Realizes.answer_eq_wrongUnit_iff (h : d.Realizes s) (a : Attempt) :
    (d.access a.unitId a.access).answer = .error (.wrongUnit a.unitId s.unitId) ↔
      a.ForOtherUnit s := by
  rw [h.answer_access]
  constructor
  · intro hanswer hunit
    rw [if_neg (not_not_intro hunit)] at hanswer
    split at hanswer <;> simp at hanswer
  · intro hunit
    exact if_pos hunit

theorem Realizes.answer_eq_outOfRange_iff (h : d.Realizes s) (a : Attempt) :
    (d.access a.unitId a.access).answer =
        .error (.outOfRange a.access.start a.access.quantity s.size) ↔ a.BeyondTables s := by
  rw [h.answer_access]
  constructor
  · intro hanswer
    by_cases hunit : a.unitId = s.unitId
    · by_cases hrange : s.size < a.access.start.toNat + a.access.quantity
      · exact ⟨hunit, hrange⟩
      · simp [hunit, hrange] at hanswer
    · simp [hunit] at hanswer
  · intro hrange
    rw [if_neg (not_not_intro hrange.1), if_pos hrange.2]

end Device

/-! ## The statistics of every run -/

/-- In every run on a device that was built from settings, the statistics are the numbers of the
accesses made and of their refusals, up to 64 bits, and the accesses made by each operation are as
many as it costs.  An operation other than a step of the counter does to the device what its
accesses do, and adds at most one error.  An access is refused for its unit or for its range exactly
when it is of that kind, and a refused access is of one kind and not of the other. -/
theorem statistics_count_every_access {s : DeviceSettings} {d : Device} {warnings : List Event}
    (hcreate : Device.create s = .ok (d, warnings)) (ops : List Operation) :
    (d.run ops).state.statistics.Count s (accessesOf s ops) ∧
      (accessesOf s ops).length = accessCountOf s ops ∧
      (d.run ops).state.statistics.errors =
        (d.run ops).state.statistics.identityErrors +
          (d.run ops).state.statistics.addressErrors ∧
      (∀ op : Operation, op.isIncrement = false →
        (d.run (ops ++ [op])).state = (d.run ops).state.makeAll (op.accesses s)) ∧
      (∀ op : Operation, ∃ refused ≤ 1, (d.run (ops ++ [op])).state.statistics.errors =
        (d.run ops).state.statistics.errors + UInt64.ofNat refused) ∧
      ∀ a : Attempt,
        (((d.run ops).state.access a.unitId a.access).answer =
          .error (.wrongUnit a.unitId s.unitId) ↔ a.ForOtherUnit s) ∧
        (((d.run ops).state.access a.unitId a.access).answer =
          .error (.outOfRange a.access.start a.access.quantity s.size) ↔ a.BeyondTables s) ∧
        (¬ a.Admitted s → (a.ForOtherUnit s ↔ ¬ a.BeyondTables s)) := by
  have hrealizes : d.Realizes s := Device.realizes_of_create hcreate
  have hreached : (d.run ops).state.Realizes s := hrealizes.run ops
  refine ⟨Device.count_run_of_create hcreate ops, length_accessesOf s ops,
    Device.errors_run_eq hcreate ops, ?_, Device.errors_run_concat hcreate ops, ?_⟩
  · intro op hop
    exact hrealizes.run_concat_eq_makeAll ops hop
  · intro a
    refine ⟨hreached.answer_eq_wrongUnit_iff a, hreached.answer_eq_outOfRange_iff a, ?_⟩
    intro hrefused
    have hkind := Attempt.not_admitted_iff.mp hrefused
    exact ⟨Attempt.not_beyondTables_of_forOtherUnit, hkind.resolve_right⟩

/-- A read, a request for another unit, a request whose read goes beyond the tables, a step of the
counter and a function that no table backs: four accesses, of which one is refused for its unit and
one for its range. -/
theorem statistics_of_mixed_run :
    Device.create fourCells = .ok (fourCellDevice, [.deviceReady 4 1 1]) ∧
      let ops : List Operation :=
        [.access .input 1 (.read 0 4), .serve 2 (.readWriteMultipleRegisters 9 9 0 [5]),
          .serve 1 (.readWriteMultipleRegisters 9 9 0 [5]), .increment, .serve 1 .reportServerId]
      (fourCellDevice.run ops).state.statistics.Count fourCells (accessesOf fourCells ops) ∧
        accessCountOf fourCells ops = 4 ∧
        (fourCellDevice.run ops).state.statistics =
          { requests := 4, errors := 2, identityErrors := 1, addressErrors := 1 } := by
  refine ⟨create_fourCells, ?_, rfl, rfl⟩
  exact (statistics_count_every_access create_fourCells _).1

end Fieldbus
