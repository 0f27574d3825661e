import Fieldbus.Proofs.Supervisor.Ticks
import Fieldbus.Proofs.Supervisor.Tracking
import Fieldbus.Proofs.Supervisor.Transitions
import Mathlib.Data.List.Induction

/-!
# The health loop only observes

A timeline follows a script whose every step may find the transport behaving in another way.  Two
timelines that differ in the period of the health loop differ in nothing else but the health checks
that were reported; and those are made on the schedule of the starts until the token fires, each
showing what the device holds at that instant.
-/

namespace Fieldbus

theorem World.Twins.withTransport {w w' : World} (h : w.Twins w') (t : TransportPlan) :
    (w.withTransport t).Twins (w'.withTransport t) :=
  { h with
    control_eq := congrArg (fun c => { c with plan := { c.plan with transport := t } })
      h.control_eq }

namespace Timeline

variable {k : Ledger} {seen seen' : Timeline} {s : SupervisorStep} {e : Errand}

/-! ## Timelines that differ in their health loops -/

/-- Nothing tells two timelines apart but the periods of the health loops and the health checks that
were reported: whatever comes next is answered alike as well. -/
structure SameBesideChecks (seen seen' : Timeline) : Prop where
  control_eq : seen'.world.control = { seen.world.control with
    plan := { seen.world.plan with healthPeriod := seen'.world.plan.healthPeriod } }
  device_eq : seen'.world.device = seen.world.device
  started_eq : seen'.started = seen.started
  firedAt_eq : seen'.firedAt = seen.firedAt
  events_eq : besideChecks seen'.events = besideChecks seen.events
  answer_eq : ∀ e : Errand, (World.step e.step (seen'.world.withTransport e.transport)).answer =
    (World.step e.step (seen.world.withTransport e.transport)).answer

/-- What was noted of twins is the same but for the health checks. -/
structure Twins (seen seen' : Timeline) : Prop where
  world : World.Twins seen.world seen'.world
  started_eq : seen'.started = seen.started
  firedAt_eq : seen'.firedAt = seen.firedAt
  events_eq : besideChecks seen'.events = besideChecks seen.events

theorem Twins.step (h : seen.Twins seen') (s : SupervisorStep) :
    (seen.step s).Twins (seen'.step s) := by
  have hstep := World.mirrors_step s _ _ h.world
  have hnow := hstep.twins.now_eq
  refine ⟨hstep.twins, ?_, ?_, ?_⟩
  · simp only [Timeline.step, hstep.answer_eq, hnow, h.started_eq]
  · have hfiring : firingInstant seen'.world s = firingInstant seen.world s := by
      cases s <;> simp only [firingInstant, h.world.now_eq, h.world.cancelAt_eq]
    simp only [Timeline.step, h.world.fired_eq, hstep.twins.fired_eq, h.firedAt_eq, hfiring]
  · simp only [Timeline.step, besideChecks_append, h.events_eq, hstep.events_eq]

theorem Twins.errand (h : seen.Twins seen') (e : Errand) :
    (seen.errand e).Twins (seen'.errand e) := by
  have hsame : (seen.withTransport e.transport).Twins (seen'.withTransport e.transport) :=
    ⟨h.world.withTransport e.transport, h.started_eq, h.firedAt_eq, h.events_eq⟩
  exact hsame.step e.step

theorem Twins.runErrands (h : seen.Twins seen') (errands : List Errand) :
    (seen.runErrands errands).Twins (seen'.runErrands errands) := by
  induction errands generalizing seen seen' with
  | nil => exact h
  | cons e errands ih => exact ih (h.errand e)

theorem Twins.sameBesideChecks (h : seen.Twins seen') : seen.SameBesideChecks seen' where
  control_eq := h.world.control_eq
  device_eq := h.world.device_eq
  started_eq := h.started_eq
  firedAt_eq := h.firedAt_eq
  events_eq := h.events_eq
  answer_eq := fun e =>
    (World.mirrors_step e.step _ _ (h.world.withTransport e.transport)).answer_eq

/-! ## The checks of a timeline -/

/-- The checks that were reported are on the schedule of the starts, up to the instant at which the
token fired if it has. -/
structure Attested (period : Nat) (made : List Checkup) (seen : Timeline) : Prop where
  checks_eq : checks seen.events = made.map Checkup.event
  tick : ∀ c ∈ made, ∃ start ∈ seen.started, IsTick period start c.instant
  ongoing : seen.world.fired = false →
    Checkups.Ongoing period seen.started made seen.world
  complete : ∀ instant ∈ seen.firedAt, Checkups.Complete period seen.started made instant

variable {made later : List Checkup} {t : TransportPlan}

theorem checks_events_step (seen : Timeline) (s : SupervisorStep) :
    checks (seen.step s).events =
      checks seen.events ++ checks (World.step s seen.world).events :=
  checks_append ..

theorem checks_events_step_of_none (h : checks (World.step s seen.world).events = []) :
    checks (seen.step s).events = checks seen.events := by
  rw [checks_events_step, h, List.append_nil]

namespace Attested

variable {period : Nat}

theorem withTransport (h : seen.Attested period made) (t : TransportPlan) :
    (seen.withTransport t).Attested period made where
  checks_eq := h.checks_eq
  tick := h.tick
  ongoing := fun hfired => (h.ongoing hfired).of_eq rfl rfl
  complete := h.complete

/-- A step that adds no checks and leaves the token and the loops as they are. -/
theorem of_rest (h : seen.Attested period made) (hstarted : (seen.step s).started = seen.started)
    (hbefore : seen.world.fired = false) (hafter : (World.step s seen.world).state.fired = false)
    (hchecks : checks (World.step s seen.world).events = [])
    (hnow : (World.step s seen.world).state.now = seen.world.now)
    (hloops : (World.step s seen.world).state.loops = seen.world.loops) :
    (seen.step s).Attested period made where
  checks_eq := (checks_events_step_of_none hchecks).trans h.checks_eq
  tick := by rw [hstarted]; exact h.tick
  ongoing := by
    rw [hstarted]
    exact fun _ => (h.ongoing hbefore).of_eq hnow hloops
  complete := by
    rw [firedAt_step_of_not_fired hbefore hafter]
    exact nofun

/-- A step that adds no checks and fires the token at once. -/
theorem of_firing (h : seen.Attested period made)
    (hstarted : (seen.step s).started = seen.started) (hbefore : seen.world.fired = false)
    (hafter : (World.step s seen.world).state.fired = true)
    (hchecks : checks (World.step s seen.world).events = [])
    (hfiring : firingInstant seen.world s = some seen.world.now) :
    (seen.step s).Attested period made where
  checks_eq := (checks_events_step_of_none hchecks).trans h.checks_eq
  tick := by rw [hstarted]; exact h.tick
  ongoing := by
    intro hnot
    cases hafter.symm.trans hnot
  complete := by
    rw [firedAt_step_of_firing hbefore hafter, hfiring, hstarted]
    intro instant hinstant
    cases hinstant
    exact (h.ongoing hbefore).complete

/-- A step after the token has fired. -/
theorem of_fired (h : seen.Attested period made) (hfired : seen.world.fired = true)
    (hquiet : seen.world.plan.transport.Reticent) : (seen.step s).Attested period made := by
  rcases World.hushed_step hquiet.down s hfired with ⟨hfired', hchecks⟩
  have hstarted := started_step_of_fired (s := s) hfired
  refine ⟨(checks_events_step_of_none hchecks).trans h.checks_eq, ?_, ?_, ?_⟩
  · rw [hstarted]
    exact h.tick
  · intro hnot
    cases hfired'.symm.trans hnot
  · rw [firedAt_step_of_fired hfired, hstarted]
    exact h.complete

end Attested

/-- Before the token has fired, the ledger and the checks are right together. -/
theorem Sound.tracks (h : seen.Sound k) (hattested : seen.Attested k.plan.healthPeriod made)
    (hfired : seen.world.fired = false) : k.Tracks (updates seen.events) made seen.world where
  holds := Or.inl (h.live hfired).2
  ongoing := by
    rw [h.started_eq]
    exact hattested.ongoing
  complete := by
    intro hnot
    cases hfired.symm.trans hnot

/-- A step that spawns no loops and does not fire the token itself adds what the ledger vouches
for. -/
theorem Sound.attested_of_adds (h : seen.Sound k)
    (hattested : seen.Attested k.plan.healthPeriod made) (hfired : seen.world.fired = false)
    (hstarted : (seen.step s).started = seen.started)
    (hfiring : firingInstant seen.world s = seen.world.cancelAt)
    (hadds : k.Adds (updates seen.events) made seen.world (World.step s seen.world).events later
      (World.step s seen.world).state) :
    (seen.step s).Attested k.plan.healthPeriod (made ++ later) := by
  have hcut : seen.world.cancelAt = k.cut := (h.live hfired).2.cancelAt_eq
  refine ⟨?_, ?_, ?_, ?_⟩
  · rw [checks_events_step, hattested.checks_eq, hadds.checks_eq, List.map_append]
  · rw [hstarted]
    intro c hc
    rcases List.mem_append.mp hc with hc | hc
    · exact hattested.tick c hc
    · rw [← h.started_eq]
      exact (hadds.vouched c hc).tick
  · rw [hstarted, ← h.started_eq]
    exact hadds.tracks.ongoing
  · cases hafter : (World.step s seen.world).state.fired with
    | false =>
      rw [firedAt_step_of_not_fired hfired hafter]
      exact nofun
    | true =>
      rw [firedAt_step_of_firing hfired hafter, hfiring, hcut, hstarted, ← h.started_eq]
      exact hadds.tracks.complete hafter

theorem Sound.plan_eq (h : seen.Sound k) : seen.world.plan = k.plan := by
  rcases h.right with ⟨-, hlive⟩ | ⟨_, -, hover⟩
  · exact hlive.plan_eq
  · exact hover.plan_eq

/-- Checks were added that the ledger vouches for. -/
def Grows (k : Ledger) (made : List Checkup) (seen seen' : Timeline) : Prop :=
  ∃ later, seen'.Attested k.plan.healthPeriod (made ++ later) ∧
    ∀ c ∈ later, k.Vouches seen.world.device.statistics seen.world.now seen'.world.now c

theorem Grows.of_attested (h : seen'.Attested k.plan.healthPeriod made) :
    seen.Grows k made seen' :=
  ⟨[], by rw [List.append_nil]; exact h, nofun⟩

theorem Sound.grows_of_adds (h : seen.Sound k)
    (hattested : seen.Attested k.plan.healthPeriod made) (hfired : seen.world.fired = false)
    (hstarted : (seen.step s).started = seen.started)
    (hfiring : firingInstant seen.world s = seen.world.cancelAt)
    (hadds : ∃ later, k.Adds (updates seen.events) made seen.world (World.step s seen.world).events
      later (World.step s seen.world).state) : seen.Grows k made (seen.step s) := by
  rcases hadds with ⟨later, hlater⟩
  exact ⟨later, h.attested_of_adds hattested hfired hstarted hfiring hlater, hlater.vouched⟩

/-- A start before the token has fired. -/
theorem Sound.grows_start (h : seen.Sound k) (hattested : seen.Attested k.plan.healthPeriod made)
    (hquiet : k.plan.transport.Reticent) (hfired : seen.world.fired = false) :
    seen.Grows k made (seen.step .start) := by
  have htracks := h.tracks hattested hfired
  have hevents : (World.step .start seen.world).events = (World.start seen.world).events :=
    List.append_nil _
  cases hanswer : (World.start seen.world).answer with
  | error e =>
    have hadds := htracks.start_of_error hquiet hfired hanswer
    rw [← hevents] at hadds
    exact h.grows_of_adds hattested hfired (started_step_of_error hanswer) rfl hadds
  | ok _ =>
    have hafter : (World.step .start seen.world).state.fired = false :=
      ((h.live hfired).2.start_of_ok hanswer).notFired
    have hstarted := started_step_of_ok hanswer
    rcases htracks.start_of_ok hquiet hfired hanswer with ⟨later, hchecks, hvouched, hongoing⟩
    refine ⟨later, ⟨?_, ?_, ?_, ?_⟩, hvouched⟩
    · rw [checks_events_step, hattested.checks_eq, hevents, hchecks, List.map_append]
    · -- What was on the schedule before is on the longer one.
      rw [hstarted]
      intro c hc
      rcases List.mem_append.mp hc with hc | hc
      · rcases hattested.tick c hc with ⟨start, hstart, htick⟩
        exact ⟨start, List.mem_append_left _ hstart, htick⟩
      · rcases (hvouched c hc).tick with ⟨start, hstart, htick⟩
        rw [h.started_eq] at hstart
        exact ⟨start, List.mem_append_left _ hstart, htick⟩
    · rw [hstarted, ← h.started_eq]
      exact fun _ => hongoing
    · rw [firedAt_step_of_not_fired hfired hafter]
      exact nofun

/-- A shutdown before the token has fired. -/
theorem Sound.attested_shutdown (h : seen.Sound k)
    (hattested : seen.Attested k.plan.healthPeriod made) (hquiet : k.plan.transport.Reticent)
    (hfired : seen.world.fired = false) :
    (seen.step .shutdown).Attested k.plan.healthPeriod made := by
  have hchecks : checks (World.step .shutdown seen.world).events = [] := by
    rw [← h.plan_eq] at hquiet
    exact (checks_append ..).trans (congrArg (· ++ []) (World.checks_shutdown hquiet.down))
  by_cases hphase : seen.world.phase = .idle ∨ seen.world.phase = .stopped
  · -- A device that rests is only marked, and the token stays.
    have hstate : (World.step .shutdown seen.world).state =
        { seen.world with phase := .stopped } := (World.shutdown_of_resting hphase).2
    refine hattested.of_rest rfl hfired ?_ hchecks ?_ ?_
    all_goals rw [hstate]
    exact hfired
  · have hafter : (World.step .shutdown seen.world).state.fired = true :=
      Ledger.fired_shutdown_of_busy hphase
    exact hattested.of_firing rfl hfired hafter hchecks rfl

/-- Every step adds checks that the ledger vouches for. -/
theorem Sound.grows_step (h : seen.Sound k) (hattested : seen.Attested k.plan.healthPeriod made)
    (hquiet : k.plan.transport.Reticent) (hrun : s ≠ .run) :
    seen.Grows k made (seen.step s) := by
  cases hfired : seen.world.fired with
  | true =>
    rw [← h.plan_eq] at hquiet
    exact .of_attested (hattested.of_fired hfired hquiet)
  | false =>
    have htracks := h.tracks hattested hfired
    cases s with
    | run => exact absurd rfl hrun
    | start => exact h.grows_start hattested hquiet hfired
    | shutdown => exact .of_attested (h.attested_shutdown hattested hquiet hfired)
    | cancel => exact .of_attested (hattested.of_firing rfl hfired rfl rfl rfl)
    | wait =>
      refine h.grows_of_adds hattested hfired rfl rfl ?_
      exact (Ledger.tracking_awaitToken _).bind (.pure _ _) _ _ htracks
    | sleep span =>
      exact h.grows_of_adds hattested hfired rfl rfl (Ledger.tracking_step_sleep span _ _ _ htracks)
    | device operations =>
      have hchecks : checks (World.step (.device operations) seen.world).events = [] :=
        (checks_append ..).trans (congrArg (· ++ [])
          (checks_of_isDevice (seen.world.device.isDevice_run operations)))
      exact .of_attested (hattested.of_rest rfl hfired hfired hchecks rfl rfl)

/-! ## Errands -/

/-- Of a check that is made during an errand: it shows what the device holds at its instant, the
statistics as they were before the errand, and the counter after the `explicit` updates that had
been asked for and one for each tick before that instant.  Only if the counter ticks at the same
instant, its value is left open. -/
structure Shows (plan : Plan) (started : List Nat) (explicit : Nat) (seen : Timeline) (e : Errand)
    (c : Checkup) : Prop where
  since_le : seen.world.now ≤ c.instant
  le_last : c.instant ≤ (seen.errand e).world.now
  statistics_eq : c.statistics = seen.world.device.statistics
  counter_eq : (∀ start ∈ started, ¬ IsTick plan.counterPeriod start c.instant) →
    c.counter = counterValue (explicit + totalTicksBefore plan.counterPeriod started c.instant)

/-- A start after the instant of the check does not matter to it. -/
theorem Shows.started_concat {plan : Plan} {started : List Nat} {explicit start : Nat}
    {c : Checkup} (h : seen.Shows plan started explicit e c) (hle : c.instant ≤ start) :
    seen.Shows plan (started ++ [start]) explicit e c :=
  { h with
    counter_eq := by
      intro hapart
      have hnone : ticksBefore plan.counterPeriod start c.instant = 0 :=
        ticksBefore_eq_zero (Nat.le_trans hle (Nat.le_add_right ..))
      rw [totalTicksBefore_concat, hnone]
      exact h.counter_eq fun first hfirst => hapart first (List.mem_append_left _ hfirst) }

/-- A step notes the start that has just succeeded, if it was one, and nothing else. -/
theorem Sound.started_step_cases (h : seen.Sound k) (s : SupervisorStep) :
    (seen.step s).started = seen.started ∨
      (seen.step s).started = seen.started ++ [(seen.step s).world.now] ∧
        (seen.step s).world.fired = false := by
  by_cases hstart : s = .start
  · subst hstart
    cases hanswer : (World.start seen.world).answer with
    | error e => exact Or.inl (started_step_of_error hanswer)
    | ok _ =>
      cases hfired : seen.world.fired with
      | true => exact Or.inl (started_step_of_fired hfired)
      | false =>
        have hlive := (h.live hfired).2.start_of_ok hanswer
        exact Or.inr ⟨started_step_of_ok hanswer, hlive.notFired⟩
  · exact Or.inl (started_step hstart)

/-- What the ledger vouches for during an errand. -/
theorem Shows.of_vouches {plan : Plan} {c : Checkup} (ht : e.transport.Discreet)
    (h : (k.withTransport ht).Vouches seen.world.device.statistics seen.world.now
      (seen.errand e).world.now c) (hperiod : k.plan.counterPeriod = plan.counterPeriod) :
    seen.Shows plan k.started k.explicit e c where
  since_le := h.since_le
  le_last := h.le_last
  statistics_eq := h.statistics_eq
  counter_eq := by
    rw [← hperiod]
    exact h.counter_eq

/-- A check that was made shows the same after the next step, which can only note a start that has
succeeded since. -/
theorem Sound.shows_step (h : seen.Sound k) {period explicit : Nat} {plan : Plan} {c : Checkup}
    {first : Timeline} (hattested : (seen.step s).Attested period made) (hc : c ∈ made)
    (hshows : first.Shows plan seen.started explicit e c) :
    first.Shows plan (seen.step s).started explicit e c := by
  rcases h.started_step_cases s with hsame | ⟨hconcat, hfired⟩
  · rw [hsame]
    exact hshows
  · rw [hconcat]
    exact hshows.started_concat ((hattested.ongoing hfired).past c hc)

/-- What is known of errands on a new device: a ledger is right, the checks are on schedule, and
each of them shows what the device held. -/
structure Kept (plan : Plan) (device : Device) (cancelAt : Option Nat) (errands : List Errand)
    (k : Ledger) (made : List Checkup) : Prop where
  sound : ((ofErrands plan device cancelAt errands).withTransport {}).Sound k
  counterPeriod_eq : k.plan.counterPeriod = plan.counterPeriod
  healthPeriod_eq : k.plan.healthPeriod = plan.healthPeriod
  explicit_eq : k.explicit = explicitIncrements (errands.map Errand.step)
  attested : (ofErrands plan device cancelAt errands).Attested plan.healthPeriod made
  shown : ∀ c ∈ made, ∃ before e after, errands = before ++ e :: after ∧
    (ofErrands plan device cancelAt before).Shows plan
      (ofErrands plan device cancelAt errands).started
      (explicitIncrements (before.map Errand.step)) e c

section

variable {settings : DeviceSettings} {plan : Plan} {device : Device} {warnings : List Event}
  {cancelAt : Option Nat} {errands : List Errand}

theorem kept_nil (hcreate : Device.create settings = .ok (device, warnings)) (plan : Plan)
    (cancelAt : Option Nat) : ∃ k, Kept plan device cancelAt [] k [] := by
  have hsound := sound_of_new hcreate { plan with transport := {} } TransportPlan.discreet_default
    cancelAt
  refine ⟨_, hsound, rfl, rfl, rfl, ⟨rfl, nofun, fun _ => ?_, nofun⟩, nofun⟩
  exact ⟨nofun, fun _ => rfl, .nil, nofun⟩

/-- One errand more. -/
theorem Kept.errand (h : Kept plan device cancelAt errands k made) (hrun : e.step ≠ .run)
    (hquiet : e.transport.Reticent) :
    ∃ k' made', Kept plan device cancelAt (errands ++ [e]) k' made' := by
  let seen := ofErrands plan device cancelAt errands
  let before : Timeline := seen.withTransport e.transport
  have hsound : before.Sound (k.withTransport hquiet.discreet) :=
    h.sound.withTransport hquiet.discreet
  have hattested : before.Attested k.plan.healthPeriod made := by
    rw [h.healthPeriod_eq]
    exact h.attested.withTransport e.transport
  rcases hsound.step hrun with ⟨next, hnext, hsound'⟩
  rcases hsound.grows_step hattested hquiet hrun with ⟨later, hattested', hvouched⟩
  have hnew : ∀ c ∈ later, seen.Shows plan seen.started
      (explicitIncrements (errands.map Errand.step)) e c := by
    intro c hc
    have hshows : seen.Shows plan k.started k.explicit e c :=
      .of_vouches hquiet.discreet (hvouched c hc) h.counterPeriod_eq
    have hstarted : k.started = seen.started := h.sound.started_eq
    rw [← h.explicit_eq, ← hstarted]
    exact hshows
  have hafter : ofErrands plan device cancelAt (errands ++ [e]) = before.step e.step :=
    ofErrands_concat ..
  refine ⟨next.withTransport TransportPlan.discreet_default, made ++ later, ?_, ?_, ?_, ?_, ?_, ?_⟩
  · rw [hafter]
    exact hsound'.withTransport TransportPlan.discreet_default
  · exact hnext.counterPeriod_eq.trans h.counterPeriod_eq
  · exact hnext.healthPeriod_eq.trans h.healthPeriod_eq
  · rw [List.map_append, explicitIncrements, sumOf_append]
    exact hnext.explicit_eq.trans (congrArg (· + e.step.increments) h.explicit_eq)
  · rw [hafter, ← h.healthPeriod_eq]
    exact hattested'
  · rw [hafter]
    intro c hc
    rcases List.mem_append.mp hc with hold | hnow
    · rcases h.shown c hold with ⟨first, e', rest, rfl, hshows⟩
      exact ⟨first, e', rest ++ [e], by simp, hsound.shows_step hattested' hc hshows⟩
    · exact ⟨errands, e, [], rfl, hsound.shows_step hattested' hc (hnew c hnow)⟩

/-- A script without whole runs, on transports that report nothing of their own accord. -/
theorem exists_kept (hcreate : Device.create settings = .ok (device, warnings)) (plan : Plan)
    (cancelAt : Option Nat) (herrands : ∀ e ∈ errands, e.step ≠ .run ∧ e.transport.Reticent) :
    ∃ k made, Kept plan device cancelAt errands k made := by
  induction errands using List.reverseRecOn with
  | nil =>
    rcases kept_nil hcreate plan cancelAt with ⟨k, hk⟩
    exact ⟨k, [], hk⟩
  | append_singleton errands e ih =>
    rcases ih fun e' he => herrands e' (List.mem_append_left _ he) with ⟨k, made, hk⟩
    rcases herrands e (List.mem_append_right _ List.mem_cons_self) with ⟨hrun, hquiet⟩
    exact hk.errand hrun hquiet

/-- The checks are those of the schedule, until the token fired or up to the present. -/
theorem Kept.complete (h : Kept plan device cancelAt errands k made) :
    let seen := ofErrands plan device cancelAt errands
    Checkups.Complete plan.healthPeriod seen.started made seen.horizon := by
  intro seen
  cases hfired : seen.world.fired with
  | false =>
    have hfiredAt : seen.firedAt = none := (h.sound.live hfired).1
    rw [horizon, hfiredAt]
    exact (h.attested.ongoing hfired).complete
  | true =>
    rcases h.sound.over hfired with ⟨instant, hinstant, -⟩
    have hfiredAt : seen.firedAt = some instant := hinstant
    rw [horizon, hfiredAt]
    exact h.attested.complete instant hfiredAt

end

/-- Once the token has fired, errands report no health checks. -/
theorem checks_runErrands_of_fired {errands : List Errand} (hfired : seen.world.fired = true)
    (hquiet : ∀ e ∈ errands, e.transport.Reticent) :
    checks (seen.runErrands errands).events = checks seen.events := by
  induction errands generalizing seen with
  | nil => rfl
  | cons e errands ih =>
    rw [List.forall_mem_cons] at hquiet
    rcases World.hushed_step (w := seen.world.withTransport e.transport) hquiet.1.down e.step hfired
      with ⟨hfired', hchecks⟩
    have hfirst : checks (seen.errand e).events = checks seen.events :=
      checks_events_step_of_none hchecks
    have hrest : checks ((seen.errand e).runErrands errands).events =
        checks (seen.errand e).events := ih hfired' hquiet.2
    exact hrest.trans hfirst

end Timeline

/-! ## The health loop along every script -/

/-- However a script goes, and however the transport behaves at each of its steps, nothing tells a
run with one period of the health loop from a run with another but the health checks that were
reported.  Those of a new device are made one period after each start that succeeded, two periods,
and so on, before the instant at which the token fired, or before the present if it has not; only a
check on that very instant is left open.  Each shows the statistics and the counter that the device
had then.  Once the token has fired, whatever follows reports none. -/
theorem health_loops_only_observe (plan : Plan) (device : Device) (cancelAt : Option Nat)
    (errands : List Errand) {period period' : Nat} (hperiod : 0 < period)
    (hperiod' : 0 < period') :
    let follow (errands : List Errand) :=
      Timeline.ofErrands { plan with healthPeriod := period } device cancelAt errands
    let follow' (errands : List Errand) :=
      Timeline.ofErrands { plan with healthPeriod := period' } device cancelAt errands
    let seen := follow errands
    seen.SameBesideChecks (follow' errands) ∧
    (∀ settings warnings, Device.create settings = .ok (device, warnings) →
      (∀ e ∈ errands, e.step ≠ .run ∧ e.transport.Reticent) →
      ∃ made : List Checkup, checks seen.events = made.map Checkup.event ∧
        Checkups.Complete period seen.started made seen.horizon ∧
        ∀ c ∈ made, (∃ start ∈ seen.started, IsTick period start c.instant) ∧
          ∃ before e after, errands = before ++ e :: after ∧
            (follow before).Shows plan seen.started
              (explicitIncrements (before.map Errand.step)) e c) ∧
    (seen.world.fired = true → ∀ more : List Errand, (∀ e ∈ more, e.transport.Reticent) →
      checks (seen.runErrands more).events = checks seen.events) := by
  intro follow follow' seen
  have htwins := World.twins_of_new plan device cancelAt hperiod hperiod'
  have hbegin : Timeline.Twins { world := _ } { world := _ } := ⟨htwins, rfl, rfl, rfl⟩
  refine ⟨(hbegin.runErrands errands).sameBesideChecks, ?_, ?_⟩
  · intro settings warnings hcreate herrands
    rcases Timeline.exists_kept hcreate { plan with healthPeriod := period } cancelAt herrands
      with ⟨k, made, hkept⟩
    refine ⟨made, hkept.attested.checks_eq, hkept.complete, ?_⟩
    intro c hc
    rcases hkept.shown c hc with ⟨before, e, after, heq, hshows⟩
    exact ⟨hkept.attested.tick c hc, before, e, after, heq,
      ⟨hshows.since_le, hshows.le_last, hshows.statistics_eq, hshows.counter_eq⟩⟩
  · exact fun hfired more hmore => Timeline.checks_runErrands_of_fired hfired hmore

/-- A start that takes two milliseconds, a request between two sleeps, a shutdown that is given up,
and a start in vain. -/
def hastyErrands : List Errand :=
  [⟨.start, { startDelay := 2 }⟩, ⟨.sleep 30, {}⟩, ⟨.device [.serve 1 (.readCoils 0 1)], {}⟩,
    ⟨.sleep 30, {}⟩, ⟨.shutdown, { stopDelay := 5 }⟩, ⟨.start, {}⟩, ⟨.sleep 100, {}⟩]

/-- The loops are spawned at 2 and the token fires at 62.  With a period of 24 the health is checked
at 26 and 50, before and after the request, and with a period of 7 it is checked eight times; the
device does not notice. -/
theorem health_loops_only_observe_hasty_errands :
    let seen := Timeline.ofErrands { hastyPlan with healthPeriod := 24 } fourCellDevice none
      hastyErrands
    let seen' := Timeline.ofErrands { hastyPlan with healthPeriod := 7 } fourCellDevice none
      hastyErrands
    0 < 24 ∧ 0 < 7 ∧ Device.create fourCells = .ok (fourCellDevice, [.deviceReady 4 1 1]) ∧
      (∀ e ∈ hastyErrands, e.step ≠ .run ∧ e.transport.Reticent) ∧
      seen'.world.device = seen.world.device ∧
      checks seen.events = [.healthChecked 0 0 0 0 2, .healthChecked 1 0 0 0 4] ∧
      (checks seen'.events).length = 8 ∧
      ∃ made : List Checkup, made.map Checkup.event =
          [.healthChecked 0 0 0 0 2, .healthChecked 1 0 0 0 4] ∧
        Checkups.Complete 24 [2] made 62 := by
  have hchecks : checks (Timeline.ofErrands { hastyPlan with healthPeriod := 24 } fourCellDevice
      none hastyErrands).events = [.healthChecked 0 0 0 0 2, .healthChecked 1 0 0 0 4] := by
    decide +kernel
  have hstarted : (Timeline.ofErrands { hastyPlan with healthPeriod := 24 } fourCellDevice none
      hastyErrands).started = [2] := by decide +kernel
  have hhorizon : (Timeline.ofErrands { hastyPlan with healthPeriod := 24 } fourCellDevice none
      hastyErrands).horizon = 62 := by decide +kernel
  have herrands : ∀ e ∈ hastyErrands, e.step ≠ .run ∧ e.transport.Reticent := by
    intro e he
    simp only [hastyErrands, List.mem_cons, List.not_mem_nil, or_false] at he
    rcases he with rfl | rfl | rfl | rfl | rfl | rfl | rfl
    all_goals exact ⟨by simp, ⟨rfl, rfl⟩, rfl, rfl⟩
  rcases health_loops_only_observe hastyPlan fourCellDevice none hastyErrands
    (show 0 < 24 by decide) (show 0 < 7 by decide) with ⟨hsame, hschedule, -⟩
  rcases hschedule _ _ create_fourCells herrands with ⟨made, hmade, hcomplete, -⟩
  rw [hstarted, hhorizon] at hcomplete
  exact ⟨by decide, by decide, create_fourCells, herrands, hsame.device_eq, hchecks,
    by decide +kernel, made, hmade.symm.trans hchecks, hcomplete⟩

end Fieldbus
