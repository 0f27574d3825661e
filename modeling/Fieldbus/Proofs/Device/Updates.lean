import Fieldbus.Proofs.Device.Counter

/-!
# What a device reports

Accesses report what became of them (`Event.isAccess`), and every increment reports one update of
the live counter, perhaps after an overflow.  The journal of a run thus tells how many increments
there were, also beyond the width of the counter (`Device.updates_run`), and holds nothing else
(`Device.isDevice_run`).
-/

namespace Fieldbus

/-- The event tells what became of an access or of a request. -/
def Event.isAccess : Event → Bool
  | .wrongUnit .. | .outOfRange .. | .counterWriteIgnored .. | .registerWritten ..
  | .accessHandled .. | .unsupportedFunction .. => true
  | _ => false

/-- The event reports an update of the live counter. -/
def Event.isUpdate : Event → Bool
  | .counterUpdated .. => true
  | _ => false

/-- The event is one that a device reports. -/
def Event.isDevice : Event → Bool
  | .counterOverflow _ | .counterUpdated .. => true
  | e => e.isAccess

theorem Event.isDevice_of_isAccess {e : Event} (h : e.isAccess = true) : e.isDevice = true := by
  cases e with
  | counterOverflow | counterUpdated => rfl
  | _ => exact h

theorem Event.isUpdate_of_isAccess {e : Event} (h : e.isAccess = true) : e.isUpdate = false := by
  cases e with
  | counterUpdated => cases h
  | _ => rfl

theorem Event.isUpdate_of_inBackground {e : Event} (h : e.InBackground) : e.isUpdate = false := by
  cases e with
  | counterUpdated => exact False.elim h
  | _ => rfl

/-- The number of updates of the live counter that events report. -/
def updates (events : List Event) : Nat :=
  events.countP (·.isUpdate)

@[simp] theorem updates_nil : updates [] = 0 :=
  rfl

theorem updates_cons {e : Event} (he : e.isUpdate = false) (events : List Event) :
    updates (e :: events) = updates events :=
  List.countP_cons_of_neg (Bool.not_eq_true _ ▸ he)

@[simp] theorem updates_append (before after : List Event) :
    updates (before ++ after) = updates before + updates after :=
  List.countP_append

@[simp] theorem updates_reverse (events : List Event) :
    updates events.reverse = updates events :=
  List.countP_reverse

theorem updates_eq_zero {events : List Event} (h : ∀ e ∈ events, e.isUpdate = false) :
    updates events = 0 := by
  rw [updates, List.countP_eq_zero]
  intro e he
  simp [h e he]

namespace Device

variable {k : TableKind}

@[simp] theorem updates_increment (d : Device) : updates d.increment.events = 1 := by
  unfold increment
  dsimp only
  split <;> rfl

theorem isDevice_increment (d : Device) : ∀ e ∈ d.increment.events, e.isDevice = true := by
  unfold increment
  dsimp only
  split <;> simp [Event.isDevice]

theorem isAccess_perform (d : Device) (a : Access k) :
    ∀ e ∈ (d.perform a).events, e.isAccess = true := by
  intro e he
  cases a with
  | read start quantity => cases he
  | write writable start values =>
    cases k with
    | holding =>
      -- Each value is reported as written or as ignored.
      rcases List.mem_map.mp he with ⟨⟨v, x⟩, -, rfl⟩
      dsimp only
      split <;> rfl
    | input | coil | discrete => cases he

theorem isAccess_access (d : Device) (unitId : UInt8) (a : Access k) :
    ∀ e ∈ (d.access unitId a).events, e.isAccess = true := by
  unfold access
  split
  · rename_i refusal _
    intro e he
    cases List.mem_singleton.mp he
    cases refusal <;> rfl
  · exact isAccess_perform _ a

theorem isAccess_handle (d : Device) (unitId : UInt8) (a : Access k) :
    ∀ e ∈ (d.handle unitId a).events, e.isAccess = true := by
  unfold handle
  dsimp only
  split
  · exact isAccess_access d unitId a
  · intro e he
    rcases List.mem_append.mp he with he | he
    · exact isAccess_access d unitId a e he
    · cases List.mem_singleton.mp he
      rfl

theorem isAccess_andTry {ε α β : Type} {o : Outcome Device (Except ε α)}
    {next : α → Device → Outcome Device (Except ε β)}
    (ho : ∀ e ∈ o.events, e.isAccess = true)
    (hnext : ∀ a d, ∀ e ∈ (next a d).events, e.isAccess = true) :
    ∀ e ∈ (o.andTry next).events, e.isAccess = true := by
  intro e he
  rcases List.mem_append.mp he with he | he
  · exact ho e he
  · cases hanswer : o.answer with
    | error refusal =>
      rw [hanswer] at he
      cases he
    | ok a =>
      rw [hanswer] at he
      exact hnext a o.state e he

theorem isAccess_serve (d : Device) (unitId : UInt8) (request : Request) :
    ∀ e ∈ (d.serve unitId request).events, e.isAccess = true := by
  cases request with
  | readWriteMultipleRegisters readStart readQuantity writeStart values =>
    exact isAccess_andTry (isAccess_handle d unitId _) fun _ d => isAccess_handle d unitId _
  | writeMultipleCoils start values | writeMultipleRegisters start values =>
    rw [serve]
    split
    · intro e he
      cases he
    · exact isAccess_handle d unitId _
  | maskWriteRegister | reportServerId | custom =>
    intro e he
    cases List.mem_singleton.mp he
    rfl
  | _ => exact isAccess_handle d unitId _

theorem isDevice_apply (d : Device) (op : Operation) :
    ∀ e ∈ (d.apply op).events, e.isDevice = true := by
  intro e he
  cases op with
  | access k unitId a => exact Event.isDevice_of_isAccess (isAccess_access d unitId a e he)
  | handle k unitId a => exact Event.isDevice_of_isAccess (isAccess_handle d unitId a e he)
  | serve unitId request => exact Event.isDevice_of_isAccess (isAccess_serve d unitId request e he)
  | increment => exact isDevice_increment d e he
  | counter => cases he

theorem isDevice_run (d : Device) (ops : List Operation) :
    ∀ e ∈ (d.run ops).events, e.isDevice = true := by
  induction ops generalizing d with
  | nil => exact fun e he => nomatch he
  | cons op ops ih =>
    intro e he
    rcases List.mem_append.mp he with he | he
    · exact isDevice_apply d op e he
    · exact ih _ e he

theorem updates_of_isAccess {events : List Event} (h : ∀ e ∈ events, e.isAccess = true) :
    updates events = 0 :=
  updates_eq_zero fun e he => Event.isUpdate_of_isAccess (h e he)

theorem updates_apply (d : Device) (op : Operation) :
    updates (d.apply op).events = increments [op] := by
  cases op with
  | access k unitId a => exact updates_of_isAccess (isAccess_access d unitId a)
  | handle k unitId a => exact updates_of_isAccess (isAccess_handle d unitId a)
  | serve unitId request => exact updates_of_isAccess (isAccess_serve d unitId request)
  | increment => exact updates_increment d
  | counter => rfl

/-- A run reports as many updates as it has increments. -/
theorem updates_run (d : Device) (ops : List Operation) :
    updates (d.run ops).events = increments ops := by
  induction ops generalizing d with
  | nil => rfl
  | cons op ops ih =>
    have hevents : (d.run (op :: ops)).events =
        (d.apply op).events ++ ((d.apply op).state.run ops).events := rfl
    rw [hevents, updates_append, updates_apply, ih, increments_cons op ops]

/-- The device realizes the settings, and its counter has been updated `n` times. -/
structure Updated (s : DeviceSettings) (n : Nat) (d : Device) : Prop where
  realizes : d.Realizes s
  counterAt : CounterAt s n d

theorem updated_of_create {s : DeviceSettings} {d : Device} {warnings : List Event}
    (hcreate : create s = .ok (d, warnings)) : d.Updated s 0 :=
  ⟨realizes_of_create hcreate, counterAt_of_create hcreate⟩

theorem Updated.increment {s : DeviceSettings} {n : Nat} {d : Device} (h : d.Updated s n) :
    d.increment.state.Updated s (n + 1) :=
  ⟨h.realizes.increment, h.counterAt.increment h.realizes⟩

theorem Updated.run {s : DeviceSettings} {n : Nat} {d : Device} (h : d.Updated s n)
    (ops : List Operation) : (d.run ops).state.Updated s (n + updates (d.run ops).events) := by
  rw [updates_run]
  exact ⟨h.realizes.run ops, h.counterAt.run h.realizes ops⟩

end Device

end Fieldbus
