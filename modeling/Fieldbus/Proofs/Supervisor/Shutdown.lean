import Fieldbus.Proofs.Supervisor.Lapse

/-!
# Shutting down

What a shutdown that answers well has done.  It drains the device if the device runs, and does
nothing at all if the device rests, so that its answer means something only as far as the lifecycle
state tells whether the transport is up.  `Watch` follows a script and notes when a start last
succeeded, whether anything has failed since, and whether a step that failed has left the transport
up.  A shutdown that answers well leaves the device down exactly if that has not happened and no
loop is left from an earlier shutdown.
-/

namespace Fieldbus

namespace World

open Process

/-! ## Starts -/

/-- A start that fails leaves the device stopped, whatever it was before; one that succeeds leaves
it running, with two loops more.  Between its moves only time has passed. -/
theorem start_cases (w : World) :
    ∃ (events : List Event) (w' : World), w.LapsesTo events w' ∧
      ((∃ e, (start w).answer = .error e ∧ (start w).state = { w' with phase := .stopped } ∧
          (start w).events = .transition w.phase .starting ::
            (events ++ [.transition .starting .stopped])) ∨
        (w.fired = false ∧ (start w).answer = .ok () ∧
          (start w).state = { spawnLoops w' with phase := .running } ∧
          (start w).events = .transition w.phase .starting ::
            (events ++ [.transition .starting .running, .started]))) := by
  cases hfired : w.fired with
  | true =>
    exact ⟨[], w, Cumulative.nil w, Or.inl ⟨.cancelled, start_of_fired hfired⟩⟩
  | false =>
    let tried := attempts 1 w.plan.retry.retries w.starting
    have hlapse : w.starting.LapsesTo tried.events tried.state := lapses_attempts _ 1 w.starting
    have hphase : tried.state.phase = .starting := hlapse.phase_eq
    -- The lifecycle moves at the end only, so this is a lapse from the world before as well.
    have hlapse' : w.LapsesTo tried.events { tried.state with phase := w.phase } :=
      { hlapse with control := { hlapse.control with phase_eq := rfl } }
    refine ⟨_, _, hlapse', ?_⟩
    cases hanswer : tried.answer with
    | error e =>
      rcases start_of_error hfired hanswer with ⟨hend, hstate, hevents⟩
      rw [hphase] at hevents
      exact Or.inl ⟨e, hend, hstate, hevents⟩
    | ok _ =>
      rcases start_of_ok hfired hanswer with ⟨hend, hstate, hevents⟩
      rw [hphase] at hevents
      exact Or.inr ⟨rfl, hend, hstate, hevents⟩

/-- No start changes the plan or completes a stop. -/
theorem sameTerms_start (w : World) : Upholds SameTerms start w := by
  have hcalled (w : World) : SameTerms w [] w.called := ⟨rfl, rfl⟩
  rw [start_eq]
  refine Upholds.bind (⟨rfl, rfl⟩ : Upholds SameTerms (moveTo .starting) w) (.get_bind ?_)
  dsimp only
  split
  · exact ⟨rfl, rfl⟩
  · refine Upholds.bind (upholds_attempts sameTerms_turn (fun _ => sameTerms_passUntil _ _) hcalled
      (fun _ => ⟨rfl, rfl⟩) (fun _ _ _ => ⟨rfl, rfl⟩) _ 1 _) ?_
    split
    · exact ⟨rfl, rfl⟩
    · exact ⟨rfl, rfl⟩

/-! ## Shutdowns -/

theorem shutdown_eq :
    shutdown = (do
      let w ← get
      if w.phase = .idle ∨ w.phase = .stopped then
        moveTo .stopped
        return .ok ()
      else
        goDown
        let drained ← drain
        moveTo .stopped
        if drained then
          report .tasksStopped
          return .ok ()
        else
          modify detachLoops
          report (.shutdownTimeout w.plan.shutdownTimeout)
          return .error (.shutdownTimeout w.plan.shutdownTimeout)) := by
  rfl

theorem shutdown_of_resting {w : World} (hphase : w.phase = .idle ∨ w.phase = .stopped) :
    (shutdown w).answer = .ok () ∧ (shutdown w).state = { w with phase := .stopped } := by
  rw [shutdown_eq]
  simp only [answer_bind, state_bind, answer_get, state_get, hphase, if_true]
  exact ⟨rfl, rfl⟩

theorem events_shutdown_of_resting {w : World} (hphase : w.phase = .idle ∨ w.phase = .stopped) :
    (shutdown w).events = [.transition w.phase .stopped] := by
  rw [shutdown_eq]
  simp only [events_bind, answer_get, state_get, events_get, hphase, if_true]
  rfl

/-- A drain after the token has fired either comes to its end, with no loop left and the transport
stopped once more, or is given up. -/
theorem drain_of_fired {w : World} (hfired : w.fired = true) (hanswer : (drain w).answer = true) :
    (drain w).state.loops = [] ∧ (w.detached = [] → (drain w).state.detached = []) ∧
      (drain w).state.stops = w.stops + 1 := by
  have hstops (w : World) : (turn w).state.stops = w.stops := by
    have hcontrol := congrArg Control.stops (control_turn w)
    split at hcontrol
    · exact hcontrol
    · exact hcontrol
  have hended (w : World) (h : w.fired = true) := turn_of_fired ((lapses_turn w).fired h)
  revert hanswer
  unfold drain
  simp only [answer_bind, state_bind, answer_get, state_get]
  split
  · -- The stop takes no time.
    let stopped : World := (joinLoops (completeStop w).state).state
    have hfired' : stopped.fired = true := hfired
    split
    · rename_i hloops
      exact fun _ => ⟨hloops, id, rfl⟩
    · split
      · exact fun h => absurd h Bool.false_ne_true
      · exact fun _ => ⟨(hended stopped hfired').1, fun _ => (hended stopped hfired').2,
          hstops stopped⟩
  · split
    · exact fun h => absurd h Bool.false_ne_true
    · -- The loops end when the stop begins to wait, and time passes without them.
      let limit := w.now + min w.plan.transport.stopDelay w.plan.shutdownTimeout
      let waiting : World := (turn w).state
      have hahead : waiting.now ≤ limit := by
        rw [now_turn]
        exact Nat.le_add_right ..
      have hpass : waiting.LapsesTo _ (passUntil limit waiting).state := lapses_passUntil hahead
      split
      · have hpassed : (passUntil limit waiting).state.stops = w.stops :=
          (congrArg Control.stops (control_passUntil limit waiting)).trans (hstops w)
        exact fun _ => ⟨hpass.loops.eq_nil (hended w hfired).1,
          fun _ => hpass.detached.eq_nil (hended w hfired).2, congrArg (· + 1) hpassed⟩
      · exact fun h => absurd h Bool.false_ne_true

/-- The world in which a shutdown of a running device begins to drain it. -/
def draining (w : World) : World :=
  { w with phase := .draining }.fire.callStop

/-- A shutdown of a device that does not rest fires the token, calls for the stop, and lets time
pass; one that answers well has seen the drain to its end. -/
theorem shutdown_cases {w : World} (hphase : ¬ (w.phase = .idle ∨ w.phase = .stopped)) :
    let drained := drain w.draining
    ((shutdown w).answer = .ok () ∧ drained.answer = true ∧
        (shutdown w).state = { drained.state with phase := .stopped } ∧
        (shutdown w).events = .transition w.phase .draining :: .stopping ::
          (drained.events ++ [.transition .draining .stopped, .tasksStopped])) ∨
      ((shutdown w).answer = .error (.shutdownTimeout w.plan.shutdownTimeout) ∧
        drained.answer = false ∧
        (shutdown w).state = detachLoops { drained.state with phase := .stopped } ∧
        (shutdown w).events = .transition w.phase .draining :: .stopping ::
          (drained.events ++ [.transition .draining .stopped,
            .shutdownTimeout w.plan.shutdownTimeout])) := by
  intro drained
  have hdrained : (drain w.draining).state.phase = .draining := (lapses_drain w.draining).phase_eq
  have hmoved : (moveTo .stopped (drain w.draining).state).events =
      [.transition .draining .stopped] := by
    rw [← hdrained]
    rfl
  have hbegun : (goDown w).state = w.draining := rfl
  rw [shutdown_eq]
  simp only [answer_bind, state_bind, events_bind, answer_get, state_get, events_get, hphase,
    if_false, hbegun]
  cases hanswer : drained.answer with
  | true =>
    simp only [if_true, events_bind, hmoved]
    exact Or.inl ⟨rfl, trivial, rfl, rfl⟩
  | false =>
    simp only [Bool.false_eq_true, if_false, events_bind, hmoved]
    exact Or.inr ⟨rfl, trivial, rfl, rfl⟩

theorem not_resting_of_running {w : World} (hphase : w.phase = .running) :
    ¬ (w.phase = .idle ∨ w.phase = .stopped) := by
  rw [hphase]
  decide

/-- A shutdown of a running device leaves it stopped with the token fired and without loops of its
own; one that answers well has stopped the transport once more. -/
theorem shutdown_of_running {w : World} (hphase : w.phase = .running) :
    (shutdown w).state.phase = .stopped ∧ (shutdown w).state.fired = true ∧
      (shutdown w).state.loops = [] ∧ w.stops ≤ (shutdown w).state.stops ∧
      ((shutdown w).answer = .ok () →
        (w.detached = [] → (shutdown w).state.detached = []) ∧
        (shutdown w).state.stops = w.stops + 1) := by
  have hbusy := not_resting_of_running hphase
  have hlapse : w.draining.LapsesTo _ (drain w.draining).state := lapses_drain w.draining
  have hfired : (drain w.draining).state.fired = true := hlapse.fired rfl
  rcases shutdown_cases hbusy with ⟨-, hdrained, hstate, -⟩ | ⟨herror, -, hstate, -⟩
  · have hdone := drain_of_fired (w := w.draining) rfl hdrained
    rw [hstate]
    exact ⟨rfl, hfired, hdone.1, hlapse.control.stops_le, fun _ => hdone.2⟩
  · rw [hstate, herror]
    exact ⟨rfl, hfired, rfl, hlapse.control.stops_le, fun h => nomatch h⟩

theorem runToEnd_eq :
    runToEnd = (do
      let result ← start
      let result ← match result with
        | .error e => pure (.error e)
        | .ok () => do
          awaitToken
          shutdown
      modify release
      return result) := by
  rfl

/-! ## Steps that only let time pass -/

theorem lapses_step {s : SupervisorStep} (hstart : s ≠ .start) (hshutdown : s ≠ .shutdown)
    (hrun : s ≠ .run) (hcancel : s ≠ .cancel) (w : World) : Upholds LapsesTo (step s) w := by
  cases s with
  | start => exact absurd rfl hstart
  | shutdown => exact absurd rfl hshutdown
  | run => exact absurd rfl hrun
  | cancel => exact absurd rfl hcancel
  | wait => exact (lapses_awaitToken w).bind (.pure _ _)
  | sleep span => exact upholds_step_sleep lapses_turn (fun h => lapses_passUntil h.ahead) span w
  | device operations => exact (lapses_operate operations w).bind (.pure _ _)

/-- No step but a shutdown completes a stop. -/
theorem sameTerms_step {s : SupervisorStep} (hshutdown : s ≠ .shutdown) (hrun : s ≠ .run)
    (w : World) : Upholds SameTerms (step s) w := by
  cases s with
  | start => exact (sameTerms_start w).bind (.pure _ _)
  | shutdown => exact absurd rfl hshutdown
  | run => exact absurd rfl hrun
  | cancel => exact ⟨rfl, rfl⟩
  | wait =>
    exact (upholds_awaitToken sameTerms_turn (fun _ => sameTerms_passUntil _ _) w).bind (.pure _ _)
  | sleep span => exact upholds_step_sleep sameTerms_turn (fun _ => sameTerms_passUntil _ _) span w
  | device operations => exact ⟨rfl, rfl⟩

theorem answer_step_ne_error {s : SupervisorStep} (hstart : s ≠ .start) (hshutdown : s ≠ .shutdown)
    (hrun : s ≠ .run) (w : World) (e : SupervisorError) :
    (step s w).answer ≠ .supervisor (.error e) := by
  intro herror
  cases s with
  | start => exact hstart rfl
  | shutdown => exact hshutdown rfl
  | run => exact hrun rfl
  | wait =>
    have hok : (step .wait w).answer = .supervisor (.ok ()) := rfl
    cases hok.symm.trans herror
  | cancel =>
    have hok : (step .cancel w).answer = .supervisor (.ok ()) := rfl
    cases hok.symm.trans herror
  | sleep span =>
    have hok : (step (.sleep span) w).answer = .supervisor (.ok ()) := by
      by_cases hspan : span = 0
      · subst hspan
        rfl
      · simp only [step, ne_eq, hspan, not_false_eq_true, if_true, answer_bind, answer_pure]
    cases hok.symm.trans herror
  | device operations =>
    have hdevice : (step (.device operations) w).answer =
        .device (operate operations w).answer := rfl
    cases hdevice.symm.trans herror

end World

/-! ## Scripts under watch -/

/-- A world, and what was noted of the script that led to it: how many stops of the transport were
complete when a start last succeeded, whether any step has failed since, and whether one of those
that have failed found the device running and did not complete a stop. -/
structure Watch where
  world : World
  stopsAtStart : Option Nat := none
  failed : Bool := false
  abandoned : Bool := false

namespace Watch

/-- Carries out one step with the transport as it is. -/
def perform (seen : Watch) (s : SupervisorStep) : Watch :=
  let done := World.step s seen.world
  match s, done.answer with
  | .start, .supervisor (.ok ()) =>
    { world := done.state, stopsAtStart := some done.state.stops }
  | _, .supervisor (.error _) =>
    let lost := seen.world.phase = .running ∧ done.state.stops = seen.world.stops
    { seen with world := done.state, failed := true, abandoned := seen.abandoned || lost }
  | _, _ => { seen with world := done.state }

/-- Carries out one step. -/
def step (seen : Watch) (e : Errand) : Watch :=
  perform { seen with world := seen.world.withTransport e.transport } e.step

/-- Carries out steps one after the other. -/
def run (seen : Watch) (errands : List Errand) : Watch :=
  errands.foldl step seen

/-- Watches a new device through a script. -/
def ofScript (plan : Plan) (device : Device) (cancelAt : Option Nat) (errands : List Errand) :
    Watch :=
  run { world := { plan, device, cancelAt } } errands

/-- The device is down: no loop is left, and if a start has ever succeeded, the transport has been
stopped since the last that did. -/
structure Down (seen : Watch) : Prop where
  loops : seen.world.loops = []
  detached : seen.world.detached = []
  stopped : ∀ n ∈ seen.stopsAtStart, n < seen.world.stops

/-- The device runs, and nothing has happened to it since a start last succeeded. -/
structure Runs (seen : Watch) : Prop where
  phase_eq : seen.world.phase = .running
  unfailed : seen.failed = false
  kept : seen.abandoned = false
  owed : seen.stopsAtStart = some seen.world.stops

/-- The device rests, and the transport has been stopped. -/
structure Rests (seen : Watch) : Prop where
  phase : seen.world.phase = .idle ∨ seen.world.phase = .stopped
  kept : seen.abandoned = false
  loops : seen.world.loops = []
  stopped : ∀ n ∈ seen.stopsAtStart, n < seen.world.stops

/-- The device rests in name only: the transport is still up. -/
structure StandsAbandoned (seen : Watch) : Prop where
  phase_eq : seen.world.phase = .stopped
  failed : seen.failed = true
  abandoned : seen.abandoned = true
  owed : seen.stopsAtStart = some seen.world.stops

/-- What was noted tells how the device stands, and loops that a shutdown has left to themselves
have been told to end. -/
structure Sound (seen : Watch) : Prop where
  standing : seen.Runs ∨ seen.Rests ∨ seen.StandsAbandoned
  detached : seen.world.detached = [] ∨
    seen.world.fired = true ∧ seen.failed = true ∧ seen.stopsAtStart.isSome

variable {seen : Watch}

theorem perform_of_start_ok (h : (World.start seen.world).answer = .ok ()) :
    seen.perform .start =
      { world := (World.start seen.world).state
        stopsAtStart := some (World.start seen.world).state.stops } := by
  simp only [perform, World.step, Process.answer_bind, Process.answer_pure, h]
  rfl

theorem perform_of_error {s : SupervisorStep} {e : SupervisorError}
    (h : (World.step s seen.world).answer = .supervisor (.error e)) :
    seen.perform s =
      { seen with
        world := (World.step s seen.world).state
        failed := true
        abandoned := seen.abandoned ||
          (seen.world.phase = .running ∧
            (World.step s seen.world).state.stops = seen.world.stops) } := by
  simp only [perform, h]

theorem perform_of_ok {s : SupervisorStep} (hstart : s ≠ .start)
    (h : ∀ e, (World.step s seen.world).answer ≠ .supervisor (.error e)) :
    seen.perform s = { seen with world := (World.step s seen.world).state } := by
  simp only [perform]
  split
  · exact absurd rfl hstart
  · rename_i hanswer
    exact absurd hanswer (h _)
  · rfl

theorem perform_of_shutdown_ok (h : (World.shutdown seen.world).answer = .ok ()) :
    seen.perform .shutdown = { seen with world := (World.shutdown seen.world).state } := by
  refine perform_of_ok (s := .shutdown) (fun h => nomatch h) ?_
  intro e herror
  cases h.symm.trans (StepAnswer.supervisor.inj herror)

/-- What is sound stays so as long as the lifecycle does not move, no stop is completed, the token
is not taken back, and no loop is spawned. -/
theorem Sound.of_kept {w : World} (h : seen.Sound) (hphase : w.phase = seen.world.phase)
    (hstops : w.stops = seen.world.stops) (hfired : seen.world.fired = true → w.fired = true)
    (hloops : seen.world.loops = [] → w.loops = [])
    (hdetached : seen.world.detached = [] → w.detached = []) :
    Sound { seen with world := w } := by
  refine ⟨?_, h.detached.imp hdetached fun hleft => ⟨hfired hleft.1, hleft.2⟩⟩
  rcases h.standing with hruns | hrests | hleft
  · refine Or.inl ⟨hphase.trans hruns.phase_eq, hruns.unfailed, hruns.kept, ?_⟩
    rw [hstops]
    exact hruns.owed
  · refine Or.inr (Or.inl ⟨?_, hrests.kept, hloops hrests.loops, ?_⟩)
    · rw [hphase]
      exact hrests.phase
    · rw [hstops]
      exact hrests.stopped
  · refine Or.inr (Or.inr ⟨hphase.trans hleft.phase_eq, hleft.failed, hleft.abandoned, ?_⟩)
    rw [hstops]
    exact hleft.owed

/-- How the transport behaves from now on is not noted. -/
theorem Sound.withTransport (h : seen.Sound) (t : TransportPlan) :
    Sound { seen with world := seen.world.withTransport t } :=
  h.of_kept rfl rfl id id id

/-- A start that fails leaves a device that ran abandoned, and one that succeeds makes a fresh
beginning. -/
theorem Sound.start (h : seen.Sound) : (seen.perform .start).Sound := by
  have hstops : (World.start seen.world).state.stops = seen.world.stops :=
    (World.sameTerms_start seen.world).stops_eq
  rcases World.start_cases seen.world with
    ⟨_, w', hlapse, ⟨e, hanswer, hstate, -⟩ | ⟨hquiet, hok, hstate, -⟩⟩
  · have hstep : (World.step .start seen.world).state = { w' with phase := .stopped } := hstate
    rw [hstate] at hstops
    rw [perform_of_error (s := .start) (congrArg StepAnswer.supervisor hanswer), hstep]
    refine ⟨?_, h.detached.imp hlapse.detached.eq_nil fun hleft =>
      ⟨hlapse.fired hleft.1, rfl, hleft.2.2⟩⟩
    rcases h.standing with hruns | hrests | hleft
    · refine Or.inr (Or.inr ⟨rfl, rfl, ?_, hruns.owed.trans (congrArg some hstops.symm)⟩)
      rw [hruns.kept, Bool.false_or]
      exact decide_eq_true ⟨hruns.phase_eq, hstops⟩
    · refine Or.inr (Or.inl ⟨Or.inr rfl, ?_, hlapse.loops.eq_nil hrests.loops, ?_⟩)
      · have hphase : seen.world.phase ≠ .running := fun hrunning =>
          World.not_resting_of_running hrunning hrests.phase
        rw [hrests.kept, Bool.false_or]
        exact decide_eq_false fun hlost => hphase hlost.1
      · intro n hn
        exact Nat.lt_of_lt_of_eq (hrests.stopped n hn) hstops.symm
    · refine Or.inr (Or.inr ⟨rfl, rfl, ?_, hleft.owed.trans (congrArg some hstops.symm)⟩)
      rw [hleft.abandoned, Bool.true_or]
  · rw [perform_of_start_ok hok, hstate]
    -- The token had not fired, so that no loop was left behind by a shutdown that was given up.
    have hdetached : seen.world.detached = [] := h.detached.resolve_right fun hleft =>
      Bool.false_ne_true (hquiet.symm.trans hleft.1)
    exact ⟨Or.inl ⟨rfl, rfl, rfl, rfl⟩, Or.inl (hlapse.detached.eq_nil hdetached)⟩

/-- A device at rest stays as it is; one that runs is brought down, or it is abandoned. -/
theorem Sound.shutdown (h : seen.Sound) : (seen.perform .shutdown).Sound := by
  have hresting (hphase : seen.world.phase = .idle ∨ seen.world.phase = .stopped) :
      seen.perform .shutdown = { seen with world := { seen.world with phase := .stopped } } := by
    rcases World.shutdown_of_resting hphase with ⟨hanswer, hstate⟩
    rw [perform_of_shutdown_ok hanswer, hstate]
  rcases h.standing with hruns | hrests | hleft
  · rcases World.shutdown_of_running hruns.phase_eq with ⟨hphase, hfired, hloops, hle, hdone⟩
    have hdetached : seen.world.detached = [] := h.detached.resolve_right fun hleft =>
      Bool.false_ne_true (hruns.unfailed.symm.trans hleft.2.1)
    cases hanswer : (World.shutdown seen.world).answer with
    | ok _ =>
      rw [perform_of_shutdown_ok hanswer]
      refine ⟨Or.inr (Or.inl ⟨Or.inr hphase, hruns.kept, hloops, ?_⟩),
        Or.inl ((hdone hanswer).1 hdetached)⟩
      intro n hn
      cases hruns.owed.symm.trans hn
      exact Nat.lt_of_lt_of_eq (Nat.lt_succ_self _) (hdone hanswer).2.symm
    | error e =>
      rw [perform_of_error (s := .shutdown) (congrArg StepAnswer.supervisor hanswer)]
      refine ⟨?_, Or.inr ⟨hfired, rfl, ?_⟩⟩
      · -- The deadline was missed, before the stop was complete or after.
        by_cases hlost : (World.shutdown seen.world).state.stops = seen.world.stops
        · refine Or.inr (Or.inr ⟨hphase, rfl, ?_, hruns.owed.trans (congrArg some hlost.symm)⟩)
          rw [hruns.kept, Bool.false_or]
          exact decide_eq_true ⟨hruns.phase_eq, hlost⟩
        · refine Or.inr (Or.inl ⟨Or.inr hphase, ?_, hloops, ?_⟩)
          · rw [hruns.kept, Bool.false_or]
            exact decide_eq_false fun h => hlost h.2
          · intro n hn
            cases hruns.owed.symm.trans hn
            exact Nat.lt_of_le_of_ne hle (Ne.symm hlost)
      · rw [hruns.owed]
        rfl
  · rw [hresting hrests.phase]
    exact ⟨Or.inr (Or.inl ⟨Or.inr rfl, hrests.kept, hrests.loops, hrests.stopped⟩), h.detached⟩
  · rw [hresting (Or.inr hleft.phase_eq)]
    exact ⟨Or.inr (Or.inr ⟨rfl, hleft.failed, hleft.abandoned, hleft.owed⟩), h.detached⟩

theorem Sound.perform {s : SupervisorStep} (h : seen.Sound) (hrun : s ≠ .run) :
    (seen.perform s).Sound := by
  by_cases hstart : s = .start
  · subst hstart
    exact h.start
  · by_cases hshutdown : s = .shutdown
    · subst hshutdown
      exact h.shutdown
    · rw [perform_of_ok hstart (World.answer_step_ne_error hstart hshutdown hrun seen.world)]
      by_cases hcancel : s = .cancel
      · subst hcancel
        exact h.of_kept rfl rfl (fun _ => rfl) id id
      · have hlapse := World.lapses_step hstart hshutdown hrun hcancel seen.world
        exact h.of_kept hlapse.phase_eq (World.sameTerms_step hshutdown hrun seen.world).stops_eq
          hlapse.fired hlapse.loops.eq_nil hlapse.detached.eq_nil

theorem Sound.run {errands : List Errand} (h : seen.Sound)
    (hrun : ∀ e ∈ errands, e.step ≠ .run) : (seen.run errands).Sound := by
  induction errands generalizing seen with
  | nil => exact h
  | cons e errands ih =>
    rw [List.forall_mem_cons] at hrun
    exact ih ((h.withTransport e.transport).perform hrun.1) hrun.2

theorem sound_of_new (plan : Plan) (device : Device) (cancelAt : Option Nat) :
    Sound { world := { plan, device, cancelAt } } :=
  ⟨Or.inr (Or.inl ⟨Or.inl rfl, rfl, rfl, nofun⟩), Or.inl rfl⟩

/-- A device that does not run is down unless it is abandoned or loops are left. -/
theorem Sound.down_iff (h : seen.Sound) (hphase : seen.world.phase ≠ .running) :
    seen.Down ↔ seen.abandoned = false ∧ seen.world.detached = [] := by
  rcases h.standing with hruns | hrests | hleft
  · exact absurd hruns.phase_eq hphase
  · exact ⟨fun hdown => ⟨hrests.kept, hdown.detached⟩,
      fun hkept => ⟨hrests.loops, hkept.2, hrests.stopped⟩⟩
  · constructor
    · intro hdown
      exact absurd (hdown.stopped _ hleft.owed) (Nat.lt_irrefl _)
    · rintro ⟨hkept, -⟩
      cases hleft.abandoned.symm.trans hkept

/-- A device that nothing has failed is neither abandoned, nor have loops been left. -/
theorem Sound.kept_of_unfailed (h : seen.Sound)
    (hunfailed : ∀ n ∈ seen.stopsAtStart, seen.failed = false) :
    seen.abandoned = false ∧ seen.world.detached = [] := by
  refine ⟨?_, h.detached.resolve_right ?_⟩
  · rcases h.standing with hruns | hrests | hleft
    · exact hruns.kept
    · exact hrests.kept
    · cases hleft.failed.symm.trans (hunfailed _ hleft.owed)
  · rintro ⟨-, hfailed, hstarted⟩
    rcases Option.isSome_iff_exists.mp hstarted with ⟨n, hn⟩
    cases hfailed.symm.trans (hunfailed n hn)

/-- A shutdown that answers well neither abandons the device nor leaves loops behind. -/
theorem Sound.detached_shutdown (h : seen.Sound)
    (hanswer : (World.shutdown seen.world).answer = .ok ()) :
    (World.shutdown seen.world).state.detached = [] ↔ seen.world.detached = [] := by
  have hresting (hphase : seen.world.phase = .idle ∨ seen.world.phase = .stopped) :
      (World.shutdown seen.world).state.detached = seen.world.detached := by
    rw [(World.shutdown_of_resting hphase).2]
  rcases h.standing with hruns | hrests | hleft
  · have hdetached := (h.kept_of_unfailed fun _ _ => hruns.unfailed).2
    have hdone := (World.shutdown_of_running hruns.phase_eq).2.2.2.2 hanswer
    exact ⟨fun _ => hdetached, hdone.1⟩
  · rw [hresting hrests.phase]
  · rw [hresting (Or.inr hleft.phase_eq)]

theorem Sound.abandoned (h : seen.Sound) (habandoned : seen.abandoned = true) :
    seen.StandsAbandoned := by
  rcases h.standing with hruns | hrests | hleft
  · cases hruns.kept.symm.trans habandoned
  · cases hrests.kept.symm.trans habandoned
  · exact hleft

theorem Sound.phase_shutdown (h : seen.Sound) :
    (World.shutdown seen.world).state.phase = .stopped := by
  rcases h.standing with hruns | hrests | hleft
  · exact (World.shutdown_of_running hruns.phase_eq).1
  · rw [(World.shutdown_of_resting hrests.phase).2]
  · rw [(World.shutdown_of_resting (Or.inr hleft.phase_eq)).2]

end Watch

/-! ## What a good answer means -/

/-- However a script goes, and however the transport behaves at each of its steps, a shutdown that
answers well leaves the device down exactly if the device has not been abandoned and no loop is left
from an earlier shutdown.  That is so as long as no step has failed since a start last succeeded.
An abandoned device is marked as stopped already, and the transport stays up. -/
theorem down_of_shutdown_ok (plan : Plan) (device : Device) (cancelAt : Option Nat)
    (errands : List Errand) (t : TransportPlan) (hrun : ∀ e ∈ errands, e.step ≠ .run)
    (hanswer :
      (World.shutdown
        ((Watch.ofScript plan device cancelAt errands).world.withTransport t)).answer = .ok ()) :
    let seen := Watch.ofScript plan device cancelAt errands
    let after := seen.step ⟨.shutdown, t⟩
    (after.Down ↔ seen.abandoned = false ∧ seen.world.detached = []) ∧
      ((∀ n ∈ seen.stopsAtStart, seen.failed = false) → after.Down) ∧
      (seen.abandoned = true → seen.world.phase = .stopped ∧
        after.stopsAtStart = some after.world.stops) := by
  intro seen after
  have hsound : seen.Sound := (Watch.sound_of_new plan device cancelAt).run hrun
  have htold := hsound.withTransport t
  have hafter : after.Sound := htold.shutdown
  have hstep : after =
      { seen with world := (World.shutdown (seen.world.withTransport t)).state } :=
    Watch.perform_of_shutdown_ok hanswer
  have hkept : after.abandoned = seen.abandoned := by
    rw [hstep]
  have hphase : after.world.phase ≠ .running := by
    rw [hstep, htold.phase_shutdown]
    decide
  have hiff : after.Down ↔ seen.abandoned = false ∧ seen.world.detached = [] := by
    rw [hafter.down_iff hphase, hstep]
    exact and_congr_right' (htold.detached_shutdown hanswer)
  refine ⟨hiff, fun hunfailed => hiff.mpr (hsound.kept_of_unfailed hunfailed), ?_⟩
  intro habandoned
  exact ⟨(hsound.abandoned habandoned).phase_eq,
    (hafter.abandoned (hkept.trans habandoned)).owed⟩

/-- A device that was started twice is brought down.  Once another start has failed it is abandoned,
and the shutdown after that answers well and leaves it up. -/
theorem down_of_shutdown_ok_startedTwice :
    let twice : List Errand := [⟨.start, {}⟩, ⟨.start, { stopDelay := 10 }⟩]
    let seen := Watch.ofScript {} fourCellDevice none twice
    let abandoned := Watch.ofScript {} fourCellDevice none (twice ++ [⟨.start, { failures := 3 }⟩])
    ((World.shutdown (seen.world.withTransport {})).answer = .ok () ∧
        (seen.step ⟨.shutdown, {}⟩).Down) ∧
      (World.shutdown (abandoned.world.withTransport {})).answer = .ok () ∧
        ¬ (abandoned.step ⟨.shutdown, {}⟩).Down := by
  intro twice seen abandoned
  have hrun : ∀ e ∈ twice ++ [⟨.start, { failures := 3 }⟩], e.step ≠ .run := by
    simp [twice]
  have hdown := down_of_shutdown_ok {} fourCellDevice none twice {}
    (fun e he => hrun e (List.mem_append_left _ he)) rfl
  have hup := down_of_shutdown_ok {} fourCellDevice none _ {} hrun rfl
  refine ⟨⟨rfl, hdown.2.1 fun _ _ => rfl⟩, rfl, fun h => ?_⟩
  cases (hup.1.mp h).1

/-- A start that is cancelled while the device runs leaves it stopped in name only: the shutdown
after it answers well with both loops left and the transport up. -/
theorem shutdown_ok_and_not_down :
    let errands : List Errand := [⟨.start, {}⟩, ⟨.cancel, {}⟩, ⟨.start, {}⟩]
    let seen := Watch.ofScript {} fourCellDevice none errands
    (World.shutdown (seen.world.withTransport {})).answer = .ok () ∧
      ¬ (seen.step ⟨.shutdown, {}⟩).Down := by
  refine ⟨rfl, ?_⟩
  intro hdown
  exact absurd (hdown.stopped 0 rfl) (Nat.lt_irrefl 0)

end Fieldbus
