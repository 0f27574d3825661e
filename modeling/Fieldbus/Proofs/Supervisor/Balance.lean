import Fieldbus.Proofs.Supervisor.Ledger

/-!
# Steps by the ledger

What each step of a script enters in the ledger.  A start that succeeds adds the schedule of its
loop, a run on the device adds its increments, and a shutdown of a running device fires the token;
all else leaves the ledger as it is.
-/

namespace Fieldbus

theorem Event.isUpdate_of_ofAttempt {e : Event} (h : e.OfAttempt) : e.isUpdate = false := by
  cases e with
  | counterUpdated => exact False.elim h
  | _ => rfl

namespace SupervisorStep

/-- The increments of the counter that a step asks for. -/
def increments : SupervisorStep → Nat
  | .device operations => Fieldbus.increments operations
  | _ => 0

end SupervisorStep

namespace Ledger

open World

variable {α : Type} {k : Ledger} {n instant : Nat} {w w' : World}

/-! ## Reports -/

/-- What is reported is no update, and all that the ledger looks at stays as it is. -/
theorem stays_of_agree {events : List Event} (hagree : Agree w w')
    (hquiet : w.plan = k.plan → updates events = 0) : k.Stays w events w' := by
  intro n h
  rw [hquiet h.plan_eq, Nat.add_zero]
  exact h.of_agree hagree

theorem stays_upEvents (w : World) : k.Stays w w.plan.transport.upEvents w := by
  refine stays_of_agree ⟨rfl, rfl, rfl, rfl, rfl, rfl⟩ fun hplan => ?_
  rw [hplan]
  exact k.discreet.1

theorem stays_ofAttempt (w : World) (events : List Event) (h : ∀ e ∈ events, e.OfAttempt) :
    k.Stays w events w :=
  stays_of_agree ⟨rfl, rfl, rfl, rfl, rfl, rfl⟩ fun _ =>
    updates_eq_zero fun e he => Event.isUpdate_of_ofAttempt (h e he)

theorem stays_called (w : World) : k.Stays w [] w.called :=
  stays_of_agree ⟨rfl, rfl, rfl, rfl, rfl, rfl⟩ fun _ => rfl

/-! ## Starts -/

/-- A pause that is not cut leaves the token as it was. -/
theorem fired_pause {span : Nat} (hahead : ∀ c ∈ w.cancelAt, w.now ≤ c) (hfired : w.fired = false)
    (hanswer : (pause span w).answer = false) : (pause span w).state.fired = false := by
  have hquiet : w.QuietUntil (w.now + span) := by
    refine ⟨hfired, ?_⟩
    intro c hc
    refine Nat.not_lt.mp fun hcut => ?_
    have hcancelled := (pause_of_cut ⟨hfired, hc, hahead c hc⟩ hcut).1
    cases hcancelled.symm.trans hanswer
  exact (congrArg Control.fired (pause_of_quiet hquiet).2).trans hfired

theorem keeps_attemptStart (attempt : Nat) : k.Keeps (attemptStart attempt) :=
  fun n w h => upholds_attemptStart stays_turn stays_passUntil stays_called stays_upEvents
    stays_ofAttempt attempt w n h

theorem keeps_attempts (retries attempt : Nat) : k.Keeps (attempts attempt retries) :=
  fun n w h => upholds_attempts stays_turn stays_passUntil stays_called stays_upEvents
    stays_ofAttempt retries attempt w n h

theorem fired_attemptStart {attempt : Nat} (hahead : ∀ c ∈ w.cancelAt, w.now ≤ c)
    (hfired : w.fired = false) (hanswer : (attemptStart attempt w).answer ≠ .cancelled) :
    (attemptStart attempt w).state.fired = false := by
  rw [answer_attemptStart] at hanswer
  rw [state_attemptStart]
  cases hcut : (pause w.plan.transport.startDelay w.called).answer with
  | false => exact fired_pause hahead hfired hcut
  | true =>
    rw [hcut] at hanswer
    exact absurd rfl hanswer

/-- A row of attempts that ends well has not been cut. -/
theorem fired_attempts (retries : Nat) :
    ∀ {attempt n : Nat} {w : World}, k.Holds n w → w.fired = false →
      (attempts attempt retries w).answer = .ok () →
      (attempts attempt retries w).state.fired = false := by
  -- By induction on the attempts that are left, along how the first of them ends.
  induction retries with
  | zero =>
    intro attempt n w h hfired hok
    cases hanswer : (attemptStart attempt w).answer with
    | up =>
      rw [(attempts_of_up 0 hanswer).2]
      exact fired_attemptStart h.ahead hfired (by rw [hanswer]; nofun)
    | cancelled => cases (attempts_of_cancelled 0 hanswer).1.symm.trans hok
    | failed => cases (attempts_zero_of_failed hanswer).1.symm.trans hok
  | succ retries ih =>
    intro attempt n w h hfired hok
    cases hanswer : (attemptStart attempt w).answer with
    | up =>
      rw [(attempts_of_up _ hanswer).2]
      exact fired_attemptStart h.ahead hfired (by rw [hanswer]; nofun)
    | cancelled => cases (attempts_of_cancelled _ hanswer).1.symm.trans hok
    | failed =>
      let failed : World := (attemptStart attempt w).state
      have hfailed := keeps_attemptStart attempt n w h
      have hfired' : failed.fired = false :=
        fired_attemptStart h.ahead hfired (by rw [hanswer]; nofun)
      cases hcut : (pause failed.plan.retry.delay failed).answer with
      | true =>
        cases (attempts_succ_of_cut retries hanswer rfl hcut).1.symm.trans hok
      | false =>
        rcases attempts_succ_of_quiet retries hanswer rfl hcut with ⟨hrest, hstate⟩
        rw [hstate]
        refine ih (keeps_pause _ _ _ hfailed) ?_ (hrest.symm.trans hok)
        exact fired_pause hfailed.ahead hfired' hcut

theorem updates_start_of_fired (hfired : w.fired = true) : updates (start w).events = 0 := by
  rw [(start_of_fired hfired).2.2]
  rfl

theorem updates_start_of_not_fired (hfired : w.fired = false) :
    updates (start w).events = updates (attempts 1 w.plan.retry.retries w.starting).events := by
  cases hanswer : (attempts 1 w.plan.retry.retries w.starting).answer with
  | error e =>
    rw [(start_of_error hfired hanswer).2.2, updates_cons rfl, updates_append]
    rfl
  | ok _ =>
    rw [(start_of_ok hfired hanswer).2.2, updates_cons rfl, updates_append]
    rfl

/-- A start that fails enters nothing. -/
theorem Live.start_of_error {e : SupervisorError} (h : k.Live n w)
    (herror : (start w).answer = .error e) : k.Reaches n (start w) := by
  have hstarting : k.Holds n w.starting := Or.inl (h.of_agree ⟨rfl, rfl, rfl, rfl, rfl, rfl⟩)
  have hattempts := keeps_attempts w.plan.retry.retries 1 n w.starting hstarting
  cases hanswer : (attempts 1 w.plan.retry.retries w.starting).answer with
  | ok _ => cases (World.start_of_ok h.notFired hanswer).1.symm.trans herror
  | error _ =>
    rcases World.start_of_error h.notFired hanswer with ⟨-, hstate, -⟩
    rw [Reaches, updates_start_of_not_fired h.notFired, hstate]
    exact Holds.of_agree hattempts ⟨rfl, rfl, rfl, rfl, rfl, rfl⟩

/-- A loop that is spawned is entered with its instant. -/
theorem Live.spawnLoops (h : k.Live n w) :
    Live { k with started := k.started ++ [w.now] } n (World.spawnLoops w) := by
  have hspawned : (World.spawnLoops w).loops = w.loops ++
      [.spawn .counter k.plan.counterPeriod w.now, .spawn .health k.plan.healthPeriod w.now] := by
    rw [World.spawnLoops, h.plan_eq]
  have hbalance : ∀ limit, w.now < limit →
      n + Loop.totalPending limit (World.spawnLoops w).loops =
        k.explicit + totalTicksBefore k.plan.counterPeriod (k.started ++ [w.now]) limit := by
    intro limit hlimit
    rw [hspawned, Loop.totalPending_spawn, totalTicksBefore_concat, ← Nat.add_assoc,
      ← Nat.add_assoc, h.balance limit hlimit, expected]
  have honSchedule := Loop.onSchedule_spawn h.onSchedule k.plan.healthPeriod
  rw [← hspawned] at honSchedule
  exact { h with onSchedule := honSchedule, balance := hbalance }

/-- A start that succeeds enters the instant at which it does. -/
theorem Live.start_of_ok (h : k.Live n w) (hok : (start w).answer = .ok ()) :
    Live { k with started := k.started ++ [(start w).state.now] } (n + updates (start w).events)
      (start w).state := by
  have hstarting : k.Holds n w.starting := Or.inl (h.of_agree ⟨rfl, rfl, rfl, rfl, rfl, rfl⟩)
  have hattempts := keeps_attempts w.plan.retry.retries 1 n w.starting hstarting
  cases hanswer : (attempts 1 w.plan.retry.retries w.starting).answer with
  | error _ => cases (World.start_of_error h.notFired hanswer).1.symm.trans hok
  | ok _ =>
    have hlive := hattempts.live (fired_attempts _ hstarting h.notFired hanswer)
    rcases World.start_of_ok h.notFired hanswer with ⟨-, hstate, -⟩
    rw [updates_start_of_not_fired h.notFired, hstate]
    exact hlive.spawnLoops.of_agree ⟨rfl, rfl, rfl, rfl, rfl, rfl⟩

/-! ## Firing the token and shutting down -/

theorem stays_completeStop (w : World) : Process.Upholds k.Stays completeStop w := by
  refine stays_of_agree ⟨rfl, rfl, rfl, rfl, rfl, rfl⟩ fun hplan => ?_
  have hevents : (completeStop w).events = w.plan.transport.downEvents := rfl
  rw [hevents, hplan]
  exact k.discreet.2

theorem stays_joinLoops (w : World) : Process.Upholds k.Stays joinLoops w := by
  refine stays_of_agree ⟨rfl, rfl, rfl, rfl, rfl, rfl⟩ fun _ => updates_eq_zero ?_
  intro e he
  rw [eq_taskFailed_of_joinLoops he]
  rfl

/-- Once the token has fired, a drain enters nothing. -/
theorem Holds.drain (h : k.Holds n w) (hfired : w.fired = true) : k.Reaches n (World.drain w) := by
  refine upholds_drain stays_turn (fun limit hlimit m hm => ?_)
    (fun w' _ => stays_completeStop w') stays_joinLoops n h
  -- The loops end when the stop begins to wait, and time passes without them.
  rcases hm.over ((lapses_turn w).fired hfired) with ⟨_, -, hover⟩
  refine hm.passUntil (mayPass_turn_of_none ?_ hover.cancelAt_eq)
  rw [now_turn]
  exact hlimit

theorem updates_shutdown_of_resting (hphase : w.phase = .idle ∨ w.phase = .stopped) :
    updates (shutdown w).events = 0 := by
  rw [events_shutdown_of_resting hphase]
  rfl

/-- A shutdown of a device that rests enters nothing. -/
theorem Holds.shutdown_of_resting (h : k.Holds n w)
    (hphase : w.phase = .idle ∨ w.phase = .stopped) : k.Reaches n (shutdown w) := by
  refine h.reaches ?_ (updates_shutdown_of_resting hphase)
  rw [(World.shutdown_of_resting hphase).2]
  exact ⟨rfl, rfl, rfl, rfl, rfl, rfl⟩

theorem updates_shutdown_of_busy (hphase : ¬ (w.phase = .idle ∨ w.phase = .stopped)) :
    updates (shutdown w).events = updates (World.drain w.draining).events := by
  rcases shutdown_cases hphase with ⟨-, -, -, hevents⟩ | ⟨-, -, -, hevents⟩
  all_goals
    rw [hevents, updates_cons rfl, updates_cons rfl, updates_append]
    rfl

/-- A shutdown of a device that does not rest goes on from the world in which the token has fired,
and enters nothing there. -/
theorem Holds.shutdown_of_busy (h : k.Holds n w.draining)
    (hphase : ¬ (w.phase = .idle ∨ w.phase = .stopped)) : k.Reaches n (shutdown w) := by
  have hdrain : k.Reaches n (World.drain w.draining) := h.drain rfl
  rcases hdrain.over ((lapses_drain w.draining).fired rfl) with ⟨instant, hcut, hover⟩
  rw [← updates_shutdown_of_busy hphase] at hover
  refine Or.inr ⟨instant, hcut, ?_⟩
  -- The loops that are left behind do not matter to a ledger that is closed.
  rcases shutdown_cases hphase with ⟨-, -, hstate, -⟩ | ⟨-, -, hstate, -⟩
  all_goals
    rw [hstate]
    exact hover.of_eq rfl rfl rfl rfl

/-! ## Runs on the device -/

/-- A run on the device enters its increments. -/
theorem Live.operate (h : k.Live n w) (ops : List Operation) :
    Live { k with explicit := k.explicit + increments ops }
      (n + updates (World.operate ops w).events) (World.operate ops w).state := by
  have hreported : updates (World.operate ops w).events = increments ops :=
    w.device.updates_run ops
  have hbalance : ∀ limit, w.now < limit →
      n + updates (World.operate ops w).events + Loop.totalPending limit w.loops =
        k.explicit + increments ops +
          totalTicksBefore k.plan.counterPeriod k.started limit := by
    intro limit hlimit
    have hbefore := h.balance limit hlimit
    rw [expected] at hbefore
    omega
  exact { h with balance := hbalance, device := h.device.run ops }

theorem Over.operate (h : k.Over instant n w) (ops : List Operation) :
    Over { k with explicit := k.explicit + increments ops } instant
      (n + updates (World.operate ops w).events) (World.operate ops w).state := by
  have hreported : updates (World.operate ops w).events = increments ops :=
    w.device.updates_run ops
  have hbalance : k.Apart instant → n + updates (World.operate ops w).events =
      k.explicit + increments ops +
        totalTicksBefore k.plan.counterPeriod k.started instant := by
    intro hapart
    have hbefore := h.balance hapart
    rw [expected] at hbefore
    omega
  exact { h with balance := hbalance, device := h.device.run ops }

/-! ## Steps -/

/-- A step that answers what a process answers reaches what the process reaches. -/
theorem Reaches.answer {p : Process World α} (h : k.Reaches n (p w)) (f : α → StepAnswer) :
    k.Reaches n ((p >>= fun a => pure (f a)) w) :=
  h.bind fun _ hm => hm

theorem Holds.step_sleep (h : k.Holds n w) (span : Nat) :
    k.Reaches n (World.step (.sleep span) w) :=
  upholds_step_sleep stays_turn stays_passUntil span w n h

theorem fired_shutdown_of_busy (hphase : ¬ (w.phase = .idle ∨ w.phase = .stopped)) :
    (shutdown w).state.fired = true := by
  have hfired : (World.drain w.draining).state.fired = true :=
    (lapses_drain w.draining).fired rfl
  rcases shutdown_cases hphase with ⟨-, -, hstate, -⟩ | ⟨-, -, hstate, -⟩
  all_goals
    rw [hstate]
    exact hfired

/-- Once the token has fired, a step enters the increments that it asks for and nothing else. -/
theorem Over.step {s : SupervisorStep} (h : k.Over instant n w) (hrun : s ≠ .run) :
    Over { k with explicit := k.explicit + s.increments } instant
      (n + updates (World.step s w).events) (World.step s w).state := by
  cases s with
  | run => exact absurd rfl hrun
  | start =>
    -- A start is cancelled before its first attempt.
    have hstate : (start w).state = { w with phase := .stopped } := (start_of_fired h.fired).2.1
    have hstart : (k.closedAt instant).Reaches n (start w) := by
      refine h.holds.reaches ?_ (updates_start_of_fired h.fired)
      rw [hstate]
      exact ⟨rfl, rfl, rfl, rfl, rfl, rfl⟩
    have hfired : (start w).state.fired = true := by
      rw [hstate]
      exact h.fired
    exact (hstart.answer .supervisor).over_of_closedAt hfired
  | wait =>
    have hwait := (keeps_awaitToken n w h.holds).answer fun _ => .supervisor (.ok ())
    exact hwait.over_of_closedAt ((lapses_awaitToken w).fired h.fired)
  | sleep span =>
    have hlapse := lapses_step (s := .sleep span) nofun nofun nofun nofun w
    exact (h.holds.step_sleep span).over_of_closedAt (hlapse.fired h.fired)
  | cancel => exact h.fire
  | shutdown =>
    by_cases hphase : w.phase = .idle ∨ w.phase = .stopped
    · have hshutdown := (h.holds.shutdown_of_resting hphase).answer .supervisor
      have hfired : (shutdown w).state.fired = true := by
        rw [(World.shutdown_of_resting hphase).2]
        exact h.fired
      exact hshutdown.over_of_closedAt hfired
    · have hdraining : k.Over instant n w.draining :=
        h.of_eq rfl h.fired.symm h.cancelAt_eq.symm rfl
      have hshutdown := (hdraining.holds.shutdown_of_busy hphase).answer .supervisor
      exact hshutdown.over_of_closedAt (fired_shutdown_of_busy hphase)
  | device ops =>
    have hevents : (World.step (.device ops) w).events = (World.operate ops w).events :=
      List.append_nil _
    rw [hevents]
    exact h.operate ops

end Ledger

end Fieldbus
