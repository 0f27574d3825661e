import Fieldbus.Proofs.Supervisor.Balance

/-!
# Ticks of the counter

A timeline follows a script whose every step may find the transport behaving in another way, and
notes when starts have succeeded, when the token fired, and what was reported.  However starts,
shutdowns, cancellations, waits and runs on the device come one after the other, the updates of the
counter are those that were asked for explicitly and one for each tick on the schedules of the
starts, up to the instant at which the token fires.
-/

namespace Fieldbus

/-- The increments of the counter that a script asks for. -/
def explicitIncrements (steps : List SupervisorStep) : Nat :=
  sumOf (·.increments) steps

/-- A world, and what was noted of the script that led to it: the instants at which starts have
succeeded, the instant at which the token fired, and all that was reported. -/
structure Timeline where
  world : World
  started : List Nat := []
  firedAt : Option Nat := none
  events : List Event := []

namespace Timeline

/-- The instant at which the token fires if it does so during a step: at once if the step fires it,
and else when that was arranged from outside. -/
def firingInstant (w : World) : SupervisorStep → Option Nat
  | .cancel | .shutdown => some w.now
  | _ => w.cancelAt

/-- Carries out one step. -/
def step (seen : Timeline) (s : SupervisorStep) : Timeline :=
  let done := World.step s seen.world
  { world := done.state
    started :=
      match s, done.answer with
      | .start, .supervisor (.ok ()) => seen.started ++ [done.state.now]
      | _, _ => seen.started
    firedAt :=
      if seen.world.fired then seen.firedAt
      else if done.state.fired then firingInstant seen.world s
      else none
    events := seen.events ++ done.events }

/-- The transport behaves in another way from now on. -/
def withTransport (seen : Timeline) (t : TransportPlan) : Timeline :=
  { seen with world := seen.world.withTransport t }

/-- Carries out one step while the transport behaves as it is said to. -/
def errand (seen : Timeline) (e : Errand) : Timeline :=
  (seen.withTransport e.transport).step e.step

/-- Carries out errands one after the other. -/
def runErrands (seen : Timeline) (errands : List Errand) : Timeline :=
  errands.foldl errand seen

/-- Follows a new device through errands. -/
def ofErrands (plan : Plan) (device : Device) (cancelAt : Option Nat) (errands : List Errand) :
    Timeline :=
  runErrands { world := { plan, device, cancelAt } } errands

theorem ofErrands_concat (plan : Plan) (device : Device) (cancelAt : Option Nat)
    (errands : List Errand) (e : Errand) :
    ofErrands plan device cancelAt (errands ++ [e]) =
      (ofErrands plan device cancelAt errands).errand e :=
  List.foldl_append ..

/-- The instant up to which loops have ticked: that at which the token fired, or the present. -/
def horizon (seen : Timeline) : Nat :=
  seen.firedAt.getD seen.world.now

/-- The ledger is right for all that was noted. -/
structure Sound (k : Ledger) (seen : Timeline) : Prop where
  started_eq : k.started = seen.started
  right : (seen.firedAt = none ∧ k.Live (updates seen.events) seen.world) ∨
    ∃ instant, seen.firedAt = some instant ∧ k.Over instant (updates seen.events) seen.world

/-- A ledger for the same loops, in which `count` increments more were asked for. -/
structure Extends (k k' : Ledger) (count : Nat) : Prop where
  counterPeriod_eq : k'.plan.counterPeriod = k.plan.counterPeriod
  healthPeriod_eq : k'.plan.healthPeriod = k.plan.healthPeriod
  settings_eq : k'.settings = k.settings
  explicit_eq : k'.explicit = k.explicit + count

variable {k : Ledger} {seen : Timeline} {s : SupervisorStep} {e : Errand} {errands : List Errand}

theorem Extends.refl (k : Ledger) : Extends k k 0 :=
  ⟨rfl, rfl, rfl, rfl⟩

theorem Extends.trans {k' k'' : Ledger} {count count' : Nat} (h : Extends k k' count)
    (h' : Extends k' k'' count') : Extends k k'' (count + count') where
  counterPeriod_eq := h'.counterPeriod_eq.trans h.counterPeriod_eq
  healthPeriod_eq := h'.healthPeriod_eq.trans h.healthPeriod_eq
  settings_eq := h'.settings_eq.trans h.settings_eq
  explicit_eq := by rw [h'.explicit_eq, h.explicit_eq, Nat.add_assoc]

/-! ## What is noted -/

theorem started_step_of_ok (hok : (World.start seen.world).answer = .ok ()) :
    (seen.step .start).started = seen.started ++ [(World.start seen.world).state.now] := by
  have hanswer : (World.step .start seen.world).answer = .supervisor (.ok ()) :=
    congrArg StepAnswer.supervisor hok
  simp only [step, hanswer]
  rfl

theorem started_step_of_error {e : SupervisorError}
    (herror : (World.start seen.world).answer = .error e) :
    (seen.step .start).started = seen.started := by
  have hanswer : (World.step .start seen.world).answer = .supervisor (.error e) :=
    congrArg StepAnswer.supervisor herror
  simp only [step, hanswer]

theorem started_step (hstart : s ≠ .start) : (seen.step s).started = seen.started := by
  cases s with
  | start => exact absurd rfl hstart
  | _ => rfl

theorem firedAt_step_of_fired (hfired : seen.world.fired = true) :
    (seen.step s).firedAt = seen.firedAt :=
  if_pos hfired

theorem firedAt_step_of_firing (hbefore : seen.world.fired = false)
    (hafter : (World.step s seen.world).state.fired = true) :
    (seen.step s).firedAt = firingInstant seen.world s := by
  simp only [step, hbefore, hafter, Bool.false_eq_true, if_false, if_true]

theorem firedAt_step_of_not_fired (hbefore : seen.world.fired = false)
    (hafter : (World.step s seen.world).state.fired = false) : (seen.step s).firedAt = none := by
  simp only [step, hbefore, hafter, Bool.false_eq_true, if_false]

theorem updates_events_step (seen : Timeline) (s : SupervisorStep) :
    updates (seen.step s).events =
      updates seen.events + updates (World.step s seen.world).events :=
  updates_append ..

/-! ## Steps -/

theorem Sound.of_live (hstarted : k.started = (seen.step s).started)
    (hbefore : seen.world.fired = false)
    (hlive : k.Live (updates seen.events + updates (World.step s seen.world).events)
      (World.step s seen.world).state) : (seen.step s).Sound k := by
  rw [← updates_events_step] at hlive
  exact ⟨hstarted, Or.inl ⟨firedAt_step_of_not_fired hbefore hlive.notFired, hlive⟩⟩

theorem Sound.of_over {instant : Nat} (hstarted : k.started = (seen.step s).started)
    (hbefore : seen.world.fired = false) (hfiring : firingInstant seen.world s = some instant)
    (hover : k.Over instant (updates seen.events + updates (World.step s seen.world).events)
      (World.step s seen.world).state) : (seen.step s).Sound k := by
  rw [← updates_events_step] at hover
  exact ⟨hstarted,
    Or.inr ⟨instant, (firedAt_step_of_firing hbefore hover.fired).trans hfiring, hover⟩⟩

/-- A step that does not fire the token itself, and enters nothing. -/
theorem Sound.of_reaches (hstarted : k.started = (seen.step s).started)
    (hbefore : seen.world.fired = false) (hfiring : firingInstant seen.world s = k.cut)
    (hreaches : k.Reaches (updates seen.events) (World.step s seen.world)) :
    (seen.step s).Sound k := by
  rcases hreaches with hlive | ⟨instant, hcut, hover⟩
  · exact .of_live hstarted hbefore hlive
  · exact .of_over hstarted hbefore (hfiring.trans hcut) hover

/-- A start before the token has fired. -/
theorem Sound.start_of_live (hstarted : k.started = seen.started)
    (h : k.Live (updates seen.events) seen.world) :
    ∃ k', Extends k k' 0 ∧ (seen.step .start).Sound k' := by
  cases hanswer : (World.start seen.world).answer with
  | error e =>
    have hreaches := (h.start_of_error hanswer).answer .supervisor
    refine ⟨k, .refl k, .of_reaches ?_ h.notFired h.cancelAt_eq hreaches⟩
    exact hstarted.trans (started_step_of_error hanswer).symm
  | ok _ =>
    let after : Ledger :=
      { k with started := k.started ++ [(World.start seen.world).state.now] }
    have hevents : (World.step .start seen.world).events = (World.start seen.world).events :=
      List.append_nil _
    have hnoted : after.started = (seen.step .start).started :=
      (congrArg (· ++ _) hstarted).trans (started_step_of_ok hanswer).symm
    refine ⟨after, ⟨rfl, rfl, rfl, rfl⟩, .of_live hnoted h.notFired ?_⟩
    rw [hevents]
    exact h.start_of_ok hanswer

/-- A shutdown before the token has fired. -/
theorem Sound.shutdown_of_live (hstarted : k.started = seen.started)
    (h : k.Live (updates seen.events) seen.world) :
    ∃ k', Extends k k' 0 ∧ (seen.step .shutdown).Sound k' := by
  by_cases hphase : seen.world.phase = .idle ∨ seen.world.phase = .stopped
  · -- A device that rests is only marked, and the token stays.
    have hreaches : k.Reaches (updates seen.events) (World.step .shutdown seen.world) :=
      (Ledger.Holds.shutdown_of_resting (Or.inl h) hphase).answer .supervisor
    have hstate : (World.step .shutdown seen.world).state =
        { seen.world with phase := .stopped } := (World.shutdown_of_resting hphase).2
    have hfired : (World.step .shutdown seen.world).state.fired = false := by
      rw [hstate]
      exact h.notFired
    exact ⟨k, .refl k, .of_live hstarted h.notFired (hreaches.live hfired)⟩
  · -- The token fires now, and the device is drained after that.
    have hdraining : k.Over seen.world.now (updates seen.events) seen.world.draining :=
      h.fire.of_eq rfl rfl rfl rfl
    have hreaches : (k.closedAt seen.world.now).Reaches (updates seen.events)
        (World.step .shutdown seen.world) :=
      (hdraining.holds.shutdown_of_busy hphase).answer .supervisor
    have hfired : (World.step .shutdown seen.world).state.fired = true :=
      Ledger.fired_shutdown_of_busy hphase
    exact ⟨k, .refl k,
      .of_over hstarted h.notFired rfl (hreaches.over_of_closedAt hfired)⟩

/-- A step before the token has fired. -/
theorem Sound.step_of_live (hstarted : k.started = seen.started)
    (h : k.Live (updates seen.events) seen.world) (hrun : s ≠ .run) :
    ∃ k', Extends k k' s.increments ∧ (seen.step s).Sound k' := by
  have hholds : k.Holds (updates seen.events) seen.world := Or.inl h
  cases s with
  | run => exact absurd rfl hrun
  | start => exact Sound.start_of_live hstarted h
  | shutdown => exact Sound.shutdown_of_live hstarted h
  | wait =>
    have hreaches : k.Reaches (updates seen.events) (World.step .wait seen.world) :=
      (Ledger.keeps_awaitToken _ _ hholds).answer fun _ => .supervisor (.ok ())
    exact ⟨k, .refl k, .of_reaches hstarted h.notFired h.cancelAt_eq hreaches⟩
  | sleep span =>
    have hreaches := hholds.step_sleep span
    exact ⟨k, .refl k, .of_reaches hstarted h.notFired h.cancelAt_eq hreaches⟩
  | cancel =>
    have hover : k.Over seen.world.now (updates seen.events) seen.world.fire := h.fire
    exact ⟨k, .refl k, .of_over hstarted h.notFired rfl hover⟩
  | device ops =>
    let after : Ledger := { k with explicit := k.explicit + increments ops }
    have hevents : (World.step (.device ops) seen.world).events =
        (World.operate ops seen.world).events := List.append_nil _
    refine ⟨after, ⟨rfl, rfl, rfl, rfl⟩, .of_live hstarted h.notFired ?_⟩
    rw [hevents]
    exact h.operate ops

/-- A step after the token has fired. -/
theorem over_step {instant : Nat} (h : k.Over instant (updates seen.events) seen.world)
    (hrun : s ≠ .run) :
    Ledger.Over { k with explicit := k.explicit + s.increments } instant
      (updates (seen.step s).events) (seen.step s).world := by
  rw [updates_events_step]
  exact h.step hrun

theorem started_step_of_fired (hfired : seen.world.fired = true) :
    (seen.step s).started = seen.started := by
  by_cases hstart : s = .start
  · subst hstart
    exact started_step_of_error (World.start_of_fired hfired).1
  · exact started_step hstart

theorem Sound.step (h : seen.Sound k) (hrun : s ≠ .run) :
    ∃ k', Extends k k' s.increments ∧ (seen.step s).Sound k' := by
  rcases h.right with ⟨-, hlive⟩ | ⟨instant, hinstant, hover⟩
  · exact Sound.step_of_live h.started_eq hlive hrun
  · have hstarted := started_step_of_fired (s := s) hover.fired
    have hfiredAt := firedAt_step_of_fired (s := s) hover.fired
    exact ⟨{ k with explicit := k.explicit + s.increments }, ⟨rfl, rfl, rfl, rfl⟩,
      h.started_eq.trans hstarted.symm,
      Or.inr ⟨instant, hfiredAt.trans hinstant, over_step hover hrun⟩⟩

theorem updates_step_of_fired {instant : Nat}
    (h : k.Over instant (updates seen.events) seen.world) (hrun : s ≠ .run) :
    updates (seen.step s).events = updates seen.events + s.increments := by
  -- From here on, all updates so far are as good as explicit ones.
  let closed : Ledger := { k with started := [], explicit := updates seen.events }
  have hclosed : closed.Over instant (updates seen.events) seen.world :=
    ⟨h.plan_eq, h.fired, h.cancelAt_eq, fun _ => rfl, h.device⟩
  exact (over_step hclosed hrun).balance nofun

/-! ## Errands -/

theorem Sound.withTransport {t : TransportPlan} (h : seen.Sound k) (ht : t.Discreet) :
    (seen.withTransport t).Sound (k.withTransport ht) := by
  refine ⟨h.started_eq, ?_⟩
  rcases h.right with ⟨hfiredAt, hlive⟩ | ⟨instant, hfiredAt, hover⟩
  · exact Or.inl ⟨hfiredAt, hlive.withTransport ht⟩
  · exact Or.inr ⟨instant, hfiredAt, hover.withTransport ht⟩

/-- A script without whole runs, on transports that report no updates.  Between two errands nothing
depends on the transport, so that any will do. -/
theorem Sound.runErrands (h : (seen.withTransport {}).Sound k)
    (herrands : ∀ e ∈ errands, e.step ≠ .run ∧ e.transport.Discreet) :
    ∃ k', Extends k k' (explicitIncrements (errands.map Errand.step)) ∧
      ((seen.runErrands errands).withTransport {}).Sound k' := by
  induction errands generalizing seen k with
  | nil => exact ⟨k, .refl k, h⟩
  | cons e errands ih =>
    rw [List.forall_mem_cons] at herrands
    rcases herrands with ⟨⟨hrun, hdiscreet⟩, hrest⟩
    rcases (h.withTransport hdiscreet).step hrun with ⟨next, hnext, hsound⟩
    rcases ih (hsound.withTransport TransportPlan.discreet_default) hrest
      with ⟨last, hlast, hdone⟩
    have hfirst : Extends k (next.withTransport TransportPlan.discreet_default) e.step.increments :=
      ⟨hnext.counterPeriod_eq, hnext.healthPeriod_eq, hnext.settings_eq, hnext.explicit_eq⟩
    exact ⟨last, hfirst.trans hlast, hdone⟩

/-- Once the token has fired, a script enters the increments that it asks for and nothing else. -/
theorem updates_runErrands_of_fired {instant : Nat}
    (h : k.Over instant (updates seen.events) (seen.world.withTransport {}))
    (herrands : ∀ e ∈ errands, e.step ≠ .run ∧ e.transport.Discreet) :
    updates (seen.runErrands errands).events =
      updates seen.events + explicitIncrements (errands.map Errand.step) := by
  induction errands generalizing seen k with
  | nil => rfl
  | cons e errands ih =>
    rw [List.forall_mem_cons] at herrands
    rcases herrands with ⟨⟨hrun, hdiscreet⟩, hrest⟩
    let told : Timeline := seen.withTransport e.transport
    have htold : Ledger.Over _ instant (updates told.events) told.world := h.withTransport hdiscreet
    have hfirst : updates (seen.errand e).events = updates seen.events + e.step.increments :=
      updates_step_of_fired htold hrun
    have hover := over_step htold hrun
    calc updates ((seen.errand e).runErrands errands).events
      _ = updates (seen.errand e).events + explicitIncrements (errands.map Errand.step) :=
        ih (hover.withTransport TransportPlan.discreet_default) hrest
      _ = updates seen.events + (e.step.increments +
          explicitIncrements (errands.map Errand.step)) := by
        rw [hfirst, Nat.add_assoc]

theorem sound_of_new {settings : DeviceSettings} {device : Device} {warnings : List Event}
    (hcreate : Device.create settings = .ok (device, warnings)) (plan : Plan)
    (hdiscreet : plan.transport.Discreet) (cancelAt : Option Nat) :
    Sound
      { plan, settings, cut := cancelAt, started := [], explicit := 0, discreet := hdiscreet }
      { world := { plan, device, cancelAt } } where
  started_eq := rfl
  right := Or.inl ⟨rfl,
    { plan_eq := rfl
      notFired := rfl
      cancelAt_eq := rfl
      ahead := fun c _ => Nat.zero_le c
      onSchedule := nofun
      balance := fun _ _ => rfl
      device := Device.updated_of_create hcreate }⟩

theorem sound_ofErrands {settings : DeviceSettings} {device : Device} {warnings : List Event}
    (hcreate : Device.create settings = .ok (device, warnings)) (plan : Plan)
    (cancelAt : Option Nat)
    (herrands : ∀ e ∈ errands, e.step ≠ .run ∧ e.transport.Discreet) :
    ∃ k : Ledger, k.plan.counterPeriod = plan.counterPeriod ∧ k.settings = settings ∧
      k.explicit = explicitIncrements (errands.map Errand.step) ∧
      ((ofErrands plan device cancelAt errands).withTransport {}).Sound k := by
  let first : Timeline := { world := { plan, device, cancelAt } }
  have hnew : (first.withTransport {}).Sound _ :=
    sound_of_new hcreate { plan with transport := {} } TransportPlan.discreet_default cancelAt
  rcases hnew.runErrands herrands with ⟨k, hk, hsound⟩
  exact ⟨k, hk.counterPeriod_eq, hk.settings_eq, hk.explicit_eq.trans (Nat.zero_add _), hsound⟩

theorem Sound.live (h : seen.Sound k) (hfired : seen.world.fired = false) :
    seen.firedAt = none ∧ k.Live (updates seen.events) seen.world := by
  rcases h.right with hlive | ⟨instant, -, hover⟩
  · exact hlive
  · cases hover.fired.symm.trans hfired

theorem Sound.updated (h : seen.Sound k) :
    seen.world.device.Updated k.settings (updates seen.events) := by
  rcases h.right with ⟨-, hlive⟩ | ⟨instant, -, hover⟩
  · exact hlive.device
  · exact hover.device

theorem Sound.over (h : seen.Sound k) (hfired : seen.world.fired = true) :
    ∃ instant, seen.firedAt = some instant ∧ k.Over instant (updates seen.events) seen.world := by
  rcases h.right with ⟨-, hlive⟩ | hover
  · cases hlive.notFired.symm.trans hfired
  · exact hover

/-- Unless a tick falls on the horizon, the updates are those that are expected before it. -/
theorem Sound.updates_eq (h : seen.Sound k) (hapart : k.Apart seen.horizon) :
    updates seen.events = k.expected seen.horizon := by
  rcases h.right with ⟨hfiredAt, hlive⟩ | ⟨instant, hfiredAt, hover⟩
  · have hhorizon : seen.horizon = seen.world.now := by rw [horizon, hfiredAt]; rfl
    rw [hhorizon] at hapart ⊢
    exact hlive.eq_expected hapart
  · have hhorizon : seen.horizon = instant := by rw [horizon, hfiredAt]; rfl
    rw [hhorizon] at hapart ⊢
    exact hover.balance hapart

end Timeline

/-! ## The counter along every script -/

/-- However a script goes on a new device, and however the transport behaves at each of its steps,
the counter has been updated once for each increment that was asked for explicitly, and once for
each tick on the schedules of the starts that succeeded: one period after the start, two periods,
and so on, before the instant at which the token fired, or before the present if it has not.  Only
ticks on that very instant are left open.  Without a period there are no ticks.  The counter and its
register show the number of updates.  Once the token has fired, whatever follows updates the counter
as often as it is asked explicitly and no more. -/
theorem counter_keeps_schedule {settings : DeviceSettings} {device : Device}
    {warnings : List Event} (hcreate : Device.create settings = .ok (device, warnings))
    (plan : Plan) (cancelAt : Option Nat) (errands : List Errand)
    (herrands : ∀ e ∈ errands, e.step ≠ .run ∧ e.transport.Discreet) :
    let seen := Timeline.ofErrands plan device cancelAt errands
    let explicit := explicitIncrements (errands.map Errand.step)
    ((∀ start ∈ seen.started, ¬ IsTick plan.counterPeriod start seen.horizon) →
      updates seen.events =
        explicit + totalTicksBefore plan.counterPeriod seen.started seen.horizon) ∧
    (plan.counterPeriod = 0 → updates seen.events = explicit) ∧
    Device.CounterAt settings (updates seen.events) seen.world.device ∧
    seen.world.device.counter.toNat =
      (if updates seen.events = 0 then 0 else 1 + (updates seen.events - 1) % 65535) ∧
    (seen.world.fired = true → ∀ more : List Errand,
      (∀ e ∈ more, e.step ≠ .run ∧ e.transport.Discreet) →
      updates (seen.runErrands more).events =
        updates seen.events + explicitIncrements (more.map Errand.step) ∧
      (explicitIncrements (more.map Errand.step) = 0 →
        (seen.runErrands more).world.device.counter = seen.world.device.counter)) := by
  intro seen explicit
  rcases Timeline.sound_ofErrands hcreate plan cancelAt herrands
    with ⟨k, hperiod, hsettings, hexplicit, hsound⟩
  change (seen.withTransport {}).Sound k at hsound
  have hstarted : k.started = seen.started := hsound.started_eq
  have hexpected : k.expected seen.horizon =
      explicit + totalTicksBefore plan.counterPeriod seen.started seen.horizon := by
    rw [Ledger.expected, hexplicit, hperiod, hstarted]
  have hupdated : seen.world.device.Updated k.settings (updates seen.events) := hsound.updated
  rw [hsettings] at hupdated
  refine ⟨?_, ?_, hupdated.counterAt, ?_, ?_⟩
  · intro hapart
    rw [← hexpected]
    refine hsound.updates_eq ?_
    intro start hstart
    rw [hperiod]
    exact hapart start (hstarted ▸ hstart)
  · intro hnone
    have hapart : k.Apart seen.horizon := by
      intro start _ htick
      rw [hperiod, hnone] at htick
      exact Nat.lt_irrefl 0 htick.pos
    have hcount : updates seen.events = k.expected seen.horizon := hsound.updates_eq hapart
    rw [hcount, hexpected, hnone, totalTicksBefore_of_no_period, Nat.add_zero]
  · rw [hupdated.counterAt.counter_eq, toNat_counterValue]
  · intro hfired more hmore
    rcases hsound.over hfired with ⟨instant, -, hover⟩
    change k.Over instant (updates seen.events) (seen.world.withTransport {}) at hover
    have hcount := Timeline.updates_runErrands_of_fired hover hmore
    refine ⟨hcount, ?_⟩
    intro hnone
    rcases hsound.runErrands hmore with ⟨k', hk', hsound'⟩
    have hupdated' : (seen.runErrands more).world.device.Updated k'.settings
        (updates (seen.runErrands more).events) := hsound'.updated
    rw [hupdated'.counterAt.counter_eq, hcount, hnone, Nat.add_zero,
      hupdated.counterAt.counter_eq]

/-- A plan with short periods, whose transport takes longer to stop than a shutdown waits. -/
def hastyPlan : Plan :=
  { counterPeriod := 10
    healthPeriod := 25
    shutdownTimeout := 3
    transport := { startDelay := 2, stopDelay := 5 } }

/-- Two starts that take two milliseconds each, an explicit increment and a start in vain between
them, and a shutdown that is given up. -/
def hastySteps : List Errand :=
  [⟨.start, { startDelay := 2 }⟩, ⟨.sleep 25, {}⟩, ⟨.device [.increment], {}⟩,
    ⟨.start, { failures := 9 }⟩, ⟨.start, { startDelay := 2 }⟩, ⟨.sleep 12, {}⟩,
    ⟨.shutdown, { stopDelay := 5 }⟩, ⟨.sleep 100, {}⟩]

/-- The loops are spawned at 2 and 29 and the token fires at 41: the one has ticked at 12, 22 and 32
by then, the other at 39, and neither ticks again. -/
theorem counter_keeps_schedule_of_hasty_steps :
    Device.create fourCells = .ok (fourCellDevice, [.deviceReady 4 1 1]) ∧
      (∀ e ∈ hastySteps, e.step ≠ .run ∧ e.transport.Discreet) ∧
      let seen := Timeline.ofErrands hastyPlan fourCellDevice none hastySteps
      seen.started = [2, 29] ∧ seen.firedAt = some 41 ∧ seen.world.now = 144 ∧
        updates seen.events = 1 + (3 + 1) ∧ seen.world.device.counter.toNat = 5 ∧
        updates (seen.runErrands [⟨.start, {}⟩, ⟨.sleep 1000, {}⟩]).events = 5 := by
  have herrands : ∀ e ∈ hastySteps, e.step ≠ .run ∧ e.transport.Discreet := by
    intro e he
    simp only [hastySteps, List.mem_cons, List.not_mem_nil, or_false] at he
    rcases he with rfl | rfl | rfl | rfl | rfl | rfl | rfl | rfl
    all_goals exact ⟨by simp, rfl, rfl⟩
  have hmore : ∀ e ∈ ([⟨.start, {}⟩, ⟨.sleep 1000, {}⟩] : List Errand),
      e.step ≠ .run ∧ e.transport.Discreet := by
    intro e he
    simp only [List.mem_cons, List.not_mem_nil, or_false] at he
    rcases he with rfl | rfl
    all_goals exact ⟨by simp, rfl, rfl⟩
  let seen := Timeline.ofErrands hastyPlan fourCellDevice none hastySteps
  have hstarted : seen.started = [2, 29] := by decide +kernel
  have hfiredAt : seen.firedAt = some 41 := by decide +kernel
  have hfired : seen.world.fired = true := by decide +kernel
  have hnow : seen.world.now = 144 := by decide +kernel
  have hhorizon : seen.horizon = 41 := by
    rw [Timeline.horizon, hfiredAt]
    rfl
  rcases counter_keeps_schedule create_fourCells hastyPlan none hastySteps herrands
    with ⟨hcount, -, -, hcounter, hafter⟩
  change (∀ start ∈ seen.started, ¬ IsTick 10 start seen.horizon) →
    updates seen.events = 1 + totalTicksBefore 10 seen.started seen.horizon at hcount
  rw [hstarted, hhorizon] at hcount
  have htotal : updates seen.events = 5 := hcount (by decide)
  have hlater := (hafter hfired _ hmore).1
  refine ⟨create_fourCells, herrands, hstarted, hfiredAt, hnow, htotal, ?_, ?_⟩
  · change updates seen.events = 5 at htotal
    rw [hcounter, htotal]
    rfl
  · rw [hlater, htotal]
    rfl

end Fieldbus
