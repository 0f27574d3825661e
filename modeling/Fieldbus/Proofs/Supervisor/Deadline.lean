import Fieldbus.Proofs.Supervisor.Transitions

/-!
# Shutdown by the deadline

With some time to shut down in, what a shutdown of a running device leaves is known exactly
(`World.shutdown_eq_closedDown`): the clock has moved by what the stop of the transport takes or by
the timeout, whichever is less, and the loops have ended at once, whether the stop came to its end
or was cut off.  From then on the device lies still: no later step completes the stop, brings a loop
back, or changes the device unless it asks for an operation on it.
-/

namespace Fieldbus

/-- The operations on the device that a step asks for. -/
def SupervisorStep.operations : SupervisorStep → List Operation
  | .device operations => operations
  | _ => []

/-- The operations on the device that a script asks for, in order. -/
def explicitOperations (errands : List Errand) : List Operation :=
  errands.flatMap (·.step.operations)

namespace World

open Process

variable {w w' w'' : World} {operations later : List Operation}

/-! ## Draining within the deadline -/

/-- The loops of a supervisor that have failed once all have begun: those without a period do. -/
def failing (w : World) : List Loop :=
  w.failed ++ w.loops.filter fun l => l.period = 0

/-- The world without its loops. -/
def endLoops (w : World) : World :=
  { w with loops := [], detached := [], failed := w.failing }

theorem endLoops_of_no_loops (hloops : w.loops = []) (hdetached : w.detached = []) :
    w.endLoops = w := by
  have hfailing : w.failing = w.failed := by
    rw [failing, hloops]
    exact List.append_nil _
  rw [endLoops, hfailing]
  cases w
  cases hloops
  cases hdetached
  rfl

theorem taskFailed_mem_joinLoops {l : Loop} (hl : l ∈ w.failed) :
    .taskFailed ∈ (joinLoops w).events := by
  rw [events_joinLoops]
  exact List.mem_map.mpr ⟨l, hl, rfl⟩

/-- Once the token has fired, a turn ends all loops and does nothing else, and every loop that has
ticks to make reports its end. -/
theorem turn_ends (hfired : w.fired = true) (hcancelAt : w.cancelAt = none) :
    (turn w).state = w.endLoops ∧
      ∀ l ∈ w.loops, 0 < l.period → l.task.stopEvent ∈ (turn w).events := by
  have hdue : ¬ w.CancelDue := by
    rintro ⟨c, hc, -⟩
    cases hcancelAt.symm.trans hc
  have hcancelled : (cancelTurn w).state = w := if_neg hdue
  have hbegun : (beginTurn w).state.fired = true := hfired
  unfold turn
  simp only [state_bind, events_bind, answer_get, state_get, events_get, hcancelled, hbegun,
    if_true]
  refine ⟨rfl, ?_⟩
  intro l hl hperiod
  -- Loops begin before they end, and those that have no ticks to make are dropped by then.
  have hlasts : { l with begun := true } ∈ (beginTurn w).state.loops :=
    List.mem_map.mpr ⟨l, List.mem_filter.mpr ⟨hl, by simpa using Nat.ne_of_gt hperiod⟩, rfl⟩
  refine List.mem_append_right _ (List.mem_append_right _ (List.mem_append_right _ ?_))
  exact List.mem_map.mpr ⟨_, List.mem_append_left _ hlasts, rfl⟩

/-- The stop of the transport comes to its end before the deadline, or just at it. -/
def StopsInTime (w : World) : Prop :=
  w.plan.transport.stopDelay ≤ w.plan.shutdownTimeout

instance (w : World) : Decidable w.StopsInTime :=
  inferInstanceAs (Decidable (_ ≤ _))

/-- The world that a drain leaves: the clock has moved on, the loops have ended, and the stop of the
transport is complete if there was time for it.  In that case the loops have been waited for. -/
def drained (w : World) : World :=
  { w.endLoops with
    now := w.now + min w.plan.transport.stopDelay w.plan.shutdownTimeout
    stops := if w.StopsInTime then w.stops + 1 else w.stops
    failed := if w.StopsInTime then [] else w.failing }

/-- What a drain leaves and reports if it has any time at all. -/
structure Drains (w : World) (o : Outcome World Bool) : Prop where
  answer_eq : o.answer = decide w.StopsInTime
  state_eq : o.state = w.drained
  reported : ∀ l ∈ w.loops, 0 < l.period → l.task.stopEvent ∈ o.events
  failures : o.answer = true → ∀ l ∈ w.failing, .taskFailed ∈ o.events

/-- The world after a stop that has taken no time, with those loops waited for that had failed. -/
def stoppedAtOnce (w : World) : World :=
  { w with stops := w.stops + 1, failed := [] }

theorem stopsInTime_of_instant_stop (hinstant : w.plan.transport.stopDelay = 0) :
    w.StopsInTime := by
  rw [StopsInTime, hinstant]
  exact Nat.zero_le _

theorem drained_of_instant_stop (hinstant : w.plan.transport.stopDelay = 0) :
    w.drained = { w.stoppedAtOnce.endLoops with failed := [] } := by
  simp only [drained, stopsInTime_of_instant_stop hinstant, hinstant, if_true, Nat.zero_min,
    Nat.add_zero]
  rfl

/-- Loops that had failed are reported as soon as the stop is complete, whatever is done next. -/
theorem taskFailed_mem_completeStop (next : Process World Bool) {l : Loop} (hl : l ∈ w.failed) :
    .taskFailed ∈ ((do completeStop; joinLoops; next : Process World Bool) w).events :=
  List.mem_append_right _ (List.mem_append_left _
    (taskFailed_mem_joinLoops (w := { w with stops := w.stops + 1 }) hl))

/-- A stop that takes no time is all there is to wait for if no loop is left. -/
theorem drains_of_no_loops (hdetached : w.detached = [])
    (hinstant : w.plan.transport.stopDelay = 0) (hloops : w.loops = []) : w.Drains (drain w) := by
  have hdrain : drain w = (do completeStop; joinLoops; return true : Process World Bool) w := by
    rw [drain, get_bind]
    simp only [hinstant, hloops, if_true]
  have hended : w.stoppedAtOnce.endLoops = w.stoppedAtOnce := endLoops_of_no_loops hloops hdetached
  have hdrained : w.drained = w.stoppedAtOnce := by
    rw [drained_of_instant_stop hinstant, hended]
    rfl
  have hintime := stopsInTime_of_instant_stop hinstant
  rw [hdrain]
  refine ⟨(decide_eq_true hintime).symm, hdrained.symm, ?_, fun _ l hl => ?_⟩
  · rw [hloops]
    exact nofun
  · rw [failing, hloops, List.filter_nil, List.append_nil] at hl
    exact taskFailed_mem_completeStop _ hl

/-- The turn in which a stop that takes no time waits for the loops is the one in which they end. -/
theorem drains_of_last_turn (hfired : w.fired = true) (hcancelAt : w.cancelAt = none)
    (htimeout : 0 < w.plan.shutdownTimeout) (hinstant : w.plan.transport.stopDelay = 0)
    (hloops : w.loops ≠ []) : w.Drains (drain w) := by
  have hdrain : drain w =
      (do completeStop; joinLoops; turn; joinLoops; return true : Process World Bool) w := by
    rw [drain, get_bind]
    simp only [hinstant, hloops, Nat.ne_of_gt htimeout, if_true, if_false]
  rcases turn_ends (w := w.stoppedAtOnce) hfired hcancelAt with ⟨hstate, hreported⟩
  have hjoined : (joinLoops (turn w.stoppedAtOnce).state).state = w.drained := by
    rw [hstate]
    exact (drained_of_instant_stop hinstant).symm
  have hintime := stopsInTime_of_instant_stop hinstant
  rw [hdrain]
  refine ⟨(decide_eq_true hintime).symm, hjoined, fun l hl hperiod => ?_, fun _ l hl => ?_⟩
  · exact List.mem_append_right _ (List.mem_append_right _
      (List.mem_append_left _ (hreported l hl hperiod)))
  · -- A loop had failed before, or it fails when it begins.
    rcases List.mem_append.mp hl with hfailed | hfails
    · exact taskFailed_mem_completeStop _ hfailed
    · have hmem : l ∈ (turn w.stoppedAtOnce).state.failed := by
        rw [hstate]
        exact hfails
      exact List.mem_append_right _ (List.mem_append_right _ (List.mem_append_right _
        (List.mem_append_left _ (taskFailed_mem_joinLoops hmem))))

/-- A stop that takes time is waited for, without the loops. -/
theorem drains_of_lasting_stop (hfired : w.fired = true) (hcancelAt : w.cancelAt = none)
    (htimeout : 0 < w.plan.shutdownTimeout) (hlasting : w.plan.transport.stopDelay ≠ 0) :
    w.Drains (drain w) := by
  let limit := w.now + min w.plan.transport.stopDelay w.plan.shutdownTimeout
  let ends : Process World Bool :=
    if w.StopsInTime then do completeStop; joinLoops; return true else return false
  have hdrain : drain w = (do turn; passUntil limit; ends : Process World Bool) w := by
    rw [drain, get_bind]
    simp only [hlasting, Nat.ne_of_gt htimeout, if_false]
    rfl
  rcases turn_ends hfired hcancelAt with ⟨hstate, hreported⟩
  -- The loops end when the wait begins, so that nothing is due while time passes.
  have hpass : (passUntil limit (turn w).state).state = { w.endLoops with now := limit } := by
    rw [hstate, passUntil_of_no_loops rfl]
  have hends : (ends { w.endLoops with now := limit }).answer = decide w.StopsInTime ∧
      (ends { w.endLoops with now := limit }).state = w.drained := by
    by_cases hintime : w.StopsInTime
    · simp only [ends, drained, hintime, if_true]
      exact ⟨rfl, rfl⟩
    · simp only [ends, drained, hintime, if_false]
      exact ⟨rfl, rfl⟩
  have hanswer : (drain w).answer = decide w.StopsInTime := by
    rw [hdrain, answer_bind, answer_bind, hpass]
    exact hends.1
  refine ⟨hanswer, ?_, ?_, ?_⟩
  · rw [hdrain, state_bind, state_bind, hpass]
    exact hends.2
  · intro l hl hperiod
    rw [hdrain]
    exact List.mem_append_left _ (hreported l hl hperiod)
  · intro hok l hl
    have hintime : w.StopsInTime := of_decide_eq_true (hanswer.symm.trans hok)
    rw [hdrain, events_bind, events_bind, hpass]
    simp only [ends, hintime, if_true]
    let passed : World := (completeStop { w.endLoops with now := limit }).state
    exact List.mem_append_right _ (List.mem_append_right _ (List.mem_append_right _
      (List.mem_append_left _ (taskFailed_mem_joinLoops (w := passed) hl))))

/-! ## Shutting down within the deadline -/

/-- The world that a shutdown of a running device leaves. -/
def closedDown (w : World) : World :=
  { w.draining.drained with phase := .stopped, failed := [] }

/-- What a shutdown of a running device answers and leaves, if it has any time at all and no loop is
left from one that had none. -/
theorem shutdown_eq_closedDown (hbusy : ¬ (w.phase = .idle ∨ w.phase = .stopped))
    (hdetached : w.detached = []) (htimeout : 0 < w.plan.shutdownTimeout) :
    (shutdown w).answer =
        (if w.StopsInTime then .ok () else .error (.shutdownTimeout w.plan.shutdownTimeout)) ∧
      (shutdown w).state = w.closedDown ∧
      (∀ l ∈ w.loops, 0 < l.period → l.task.stopEvent ∈ (shutdown w).events) ∧
      ((shutdown w).answer = .ok () → ∀ l ∈ w.failing, .taskFailed ∈ (shutdown w).events) := by
  -- The token fires before the drain, and a cancellation that was arranged goes with it.
  have hdrains : w.draining.Drains (drain w.draining) := by
    by_cases hinstant : w.plan.transport.stopDelay = 0
    · by_cases hloops : w.loops = []
      · exact drains_of_no_loops hdetached hinstant hloops
      · exact drains_of_last_turn rfl rfl htimeout hinstant hloops
    · exact drains_of_lasting_stop rfl rfl htimeout hinstant
  have hanswer : (drain w.draining).answer = decide w.StopsInTime := hdrains.answer_eq
  have hreported (last : List Event) {e : Event} (he : e ∈ (drain w.draining).events) :
      e ∈ .transition w.phase .draining :: .stopping :: ((drain w.draining).events ++ last) :=
    List.mem_cons_of_mem _ (List.mem_cons_of_mem _ (List.mem_append_left _ he))
  rcases shutdown_cases hbusy with
    ⟨hok, hdrained, hstate, hevents⟩ | ⟨herror, hdrained, hstate, hevents⟩
  · have hintime : w.StopsInTime := of_decide_eq_true (hanswer.symm.trans hdrained)
    have hjoined : w.draining.drained.failed = [] := if_pos hintime
    have hclosed : { w.draining.drained with phase := .stopped } = w.closedDown :=
      congrArg (fun failed => { w.draining.drained with phase := .stopped, failed }) hjoined
    rw [if_pos hintime, hstate, hdrains.state_eq, hevents]
    exact ⟨hok, hclosed, fun l hl hperiod => hreported _ (hdrains.reported l hl hperiod),
      fun _ l hl => hreported _ (hdrains.failures hdrained l hl)⟩
  · -- The loops have ended before the stop is cut off, so that none is left to be detached.
    have hlate : ¬ w.StopsInTime := of_decide_eq_false (hanswer.symm.trans hdrained)
    rw [if_neg hlate, hstate, hdrains.state_eq, hevents]
    refine ⟨herror, rfl, fun l hl hperiod => hreported _ (hdrains.reported l hl hperiod), ?_⟩
    intro hok
    cases herror.symm.trans hok

/-! ## Devices that lie still -/

/-- The device is stopped with the token fired, and no loop is left. -/
structure Dormant (w : World) : Prop where
  fired : w.fired = true
  cancelAt_eq : w.cancelAt = none
  phase_eq : w.phase = .stopped
  loops_eq : w.loops = []
  detached_eq : w.detached = []

/-- In the later world all is still as it was, but for the clock and operations on the device. -/
structure LiesStill (w : World) (operations : List Operation) (w' : World) : Prop where
  dormant : w'.Dormant
  starts_eq : w'.starts = w.starts
  stopCalls_eq : w'.stopCalls = w.stopCalls
  stops_eq : w'.stops = w.stops
  device_eq : w'.device = (w.device.run operations).state

namespace LiesStill

theorem refl (h : w.Dormant) : w.LiesStill [] w :=
  ⟨h, rfl, rfl, rfl, rfl⟩

theorem trans (h : w.LiesStill operations w') (h' : w'.LiesStill later w'') :
    w.LiesStill (operations ++ later) w'' where
  dormant := h'.dormant
  starts_eq := h'.starts_eq.trans h.starts_eq
  stopCalls_eq := h'.stopCalls_eq.trans h.stopCalls_eq
  stops_eq := h'.stops_eq.trans h.stops_eq
  device_eq := by rw [h'.device_eq, h.device_eq, Device.run_append]

end LiesStill

namespace Dormant

theorem liesStill_stopped (h : w.Dormant) : w.LiesStill [] { w with phase := .stopped } :=
  ⟨⟨h.fired, h.cancelAt_eq, rfl, h.loops_eq, h.detached_eq⟩, rfl, rfl, rfl, rfl⟩

theorem withTransport (h : w.Dormant) (t : TransportPlan) : (w.withTransport t).Dormant :=
  ⟨h.fired, h.cancelAt_eq, h.phase_eq, h.loops_eq, h.detached_eq⟩

/-- A wait for the token is over at once. -/
theorem state_awaitToken (h : w.Dormant) : (awaitToken w).state = w := by
  rw [awaitToken, get_bind, h.fired]
  rfl

/-- While the main task sleeps, only the clock moves. -/
theorem state_sleepUntil (h : w.Dormant) (limit : Nat) :
    (sleepUntil limit w).state = { w with now := limit } := by
  have hturn : (turn w).state = w :=
    (turn_ends h.fired h.cancelAt_eq).1.trans (endLoops_of_no_loops h.loops_eq h.detached_eq)
  have hpass : (passUntil limit w).state = { w with now := limit } :=
    congrArg Outcome.state (passUntil_of_no_loops h.loops_eq limit)
  rw [← hpass]
  unfold sleepUntil
  simp only [state_bind, answer_get, state_get, hturn, h.cancelAt_eq]

/-- A whole run is cancelled before its first attempt, and the supervisor is given up. -/
theorem state_runToEnd (h : w.Dormant) :
    (runToEnd w).state =
      { w with phase := .stopped, released := true, loops := [], failed := [] } := by
  rcases start_of_fired h.fired with ⟨hanswer, hstate, -⟩
  rw [runToEnd_eq]
  simp only [state_bind, hanswer, hstate, state_pure]
  rfl

/-- No step wakes a device that lies still. -/
theorem step (h : w.Dormant) (s : SupervisorStep) :
    w.LiesStill s.operations (World.step s w).state := by
  cases s with
  | start =>
    have hstate : (World.step .start w).state = { w with phase := .stopped } :=
      (start_of_fired h.fired).2.1
    rw [hstate]
    exact h.liesStill_stopped
  | wait =>
    have hstate : (World.step .wait w).state = w := h.state_awaitToken
    rw [hstate]
    exact .refl h
  | shutdown =>
    have hstate : (World.step .shutdown w).state = { w with phase := .stopped } :=
      (shutdown_of_resting (Or.inr h.phase_eq)).2
    rw [hstate]
    exact h.liesStill_stopped
  | run =>
    have hstate : (World.step .run w).state =
        { w with phase := .stopped, released := true, loops := [], failed := [] } :=
      h.state_runToEnd
    rw [hstate]
    exact ⟨⟨h.fired, h.cancelAt_eq, rfl, rfl, h.detached_eq⟩, rfl, rfl, rfl, rfl⟩
  | cancel => exact ⟨⟨rfl, rfl, h.phase_eq, h.loops_eq, h.detached_eq⟩, rfl, rfl, rfl, rfl⟩
  | sleep span =>
    by_cases hspan : span = 0
    · subst hspan
      exact .refl h
    · have hstate : (World.step (.sleep span) w).state = { w with now := w.now + span } := by
        simp only [World.step, hspan, ne_eq, not_false_eq_true, if_true, state_bind, state_get,
          answer_get, state_pure]
        exact h.state_sleepUntil _
      rw [hstate]
      exact ⟨⟨h.fired, h.cancelAt_eq, h.phase_eq, h.loops_eq, h.detached_eq⟩, rfl, rfl, rfl, rfl⟩
  | device operations =>
    exact ⟨⟨h.fired, h.cancelAt_eq, h.phase_eq, h.loops_eq, h.detached_eq⟩, rfl, rfl, rfl, rfl⟩

/-- Nor does any script, however the transport behaves. -/
theorem run (seen : Chronicle) (h : seen.world.Dormant) (errands : List Errand) :
    seen.world.LiesStill (explicitOperations errands) (seen.run errands).world := by
  induction errands generalizing seen with
  | nil => exact .refl h
  | cons e errands ih =>
    -- A step is made under the transport of its errand, which is no part of what lies still.
    have hstep := (h.withTransport e.transport).step e.step
    have hfirst : seen.world.LiesStill e.step.operations (seen.step e).world :=
      ⟨hstep.dormant, hstep.starts_eq, hstep.stopCalls_eq, hstep.stops_eq, hstep.device_eq⟩
    exact hfirst.trans (ih (seen.step e) hstep.dormant)

end Dormant

/-! ## Loops that are left to themselves -/

/-- Shutdowns that have any time at all leave no loop to itself. -/
structure LeavesNone (w : World) (events : List Event) (w' : World) : Prop where
  timeout_eq : w'.plan.shutdownTimeout = w.plan.shutdownTimeout
  detached_eq : 0 < w.plan.shutdownTimeout → w.detached = [] → w'.detached = []

instance : Cumulative LeavesNone where
  nil w := ⟨rfl, fun _ => id⟩
  append {w w' w'' before after} h h' := by
    refine ⟨h'.timeout_eq.trans h.timeout_eq, ?_⟩
    intro htimeout hdetached
    refine h'.detached_eq ?_ (h.detached_eq htimeout hdetached)
    rw [h.timeout_eq]
    exact htimeout

theorem LapsesTo.leavesNone {events : List Event} (h : w.LapsesTo events w') :
    w.LeavesNone events w' :=
  ⟨congrArg Plan.shutdownTimeout h.control.plan_eq, fun _ => h.detached.eq_nil⟩

theorem leavesNone_of_lapses {α : Type} {p : Process World α} (h : Upholds LapsesTo p w) :
    Upholds LeavesNone p w :=
  LapsesTo.leavesNone h

theorem leavesNone_start (w : World) : Upholds LeavesNone start w := by
  rcases start_cases w with ⟨_, w', hlapse, ⟨e, -, hstate, -⟩ | ⟨-, -, hstate, -⟩⟩
  · rw [Upholds, hstate]
    exact ⟨hlapse.leavesNone.timeout_eq, hlapse.leavesNone.detached_eq⟩
  · rw [Upholds, hstate]
    exact ⟨hlapse.leavesNone.timeout_eq, hlapse.leavesNone.detached_eq⟩

theorem leavesNone_shutdown (w : World) : Upholds LeavesNone shutdown w := by
  by_cases hresting : w.phase = .idle ∨ w.phase = .stopped
  · rw [Upholds, (shutdown_of_resting hresting).2]
    exact ⟨rfl, fun _ => id⟩
  · have hplan : (drain w.draining).state.plan = w.plan :=
      (lapses_drain w.draining).control.plan_eq
    refine ⟨?_, ?_⟩
    · rcases shutdown_cases hresting with ⟨-, -, hstate, -⟩ | ⟨-, -, hstate, -⟩
      · rw [hstate]
        exact congrArg Plan.shutdownTimeout hplan
      · rw [hstate]
        exact congrArg Plan.shutdownTimeout hplan
    · -- A drain that has any time ends all loops, so that none is left when it is given up.
      intro htimeout hdetached
      rw [(shutdown_eq_closedDown hresting hdetached htimeout).2.1]
      rfl

theorem leavesNone_runToEnd (w : World) : Upholds LeavesNone runToEnd w := by
  have hrelease (w : World) : w.LeavesNone [] w.release := ⟨rfl, fun _ => id⟩
  rw [runToEnd_eq]
  refine (leavesNone_start w).bind ?_
  cases (start w).answer with
  | error e => exact (hrelease _ : LeavesNone _ [] _)
  | ok _ =>
    refine (leavesNone_of_lapses (lapses_awaitToken _)).bind ((leavesNone_shutdown _).bind ?_)
    exact (hrelease _ : LeavesNone _ [] _)

theorem leavesNone_step (s : SupervisorStep) (w : World) : Upholds LeavesNone (step s) w := by
  cases s with
  | start => exact (leavesNone_start w).bind (.pure _ _)
  | shutdown => exact (leavesNone_shutdown w).bind (.pure _ _)
  | run => exact (leavesNone_runToEnd w).bind (.pure _ _)
  | cancel => exact ⟨rfl, fun _ => id⟩
  | wait | sleep | device => refine leavesNone_of_lapses (lapses_step ?_ ?_ ?_ ?_ w) <;> nofun

theorem leavesNone_run (errands : List Errand) (seen : Chronicle) :
    seen.world.LeavesNone [] (seen.run errands).world := by
  induction errands generalizing seen with
  | nil => exact Cumulative.nil seen.world
  | cons e errands ih =>
    -- How the transport behaves has no say in how long a shutdown may take.
    have hstep := leavesNone_step e.step (seen.world.withTransport e.transport)
    have hlater := ih (seen.step e)
    refine ⟨hlater.timeout_eq.trans hstep.timeout_eq, ?_⟩
    intro htimeout hdetached
    refine hlater.detached_eq ?_ (hstep.detached_eq htimeout hdetached)
    exact Nat.lt_of_lt_of_eq htimeout hstep.timeout_eq.symm

/-! ## Shutdowns in the course of a script -/

/-- The world can be met in the course of a script, with the transport behaving in some way from
then on. -/
def Reachable (w : World) : Prop :=
  ∃ (plan : Plan) (device : Device) (cancelAt : Option Nat) (errands : List Errand)
    (t : TransportPlan),
    w = (Chronicle.ofScript plan device cancelAt errands).world.withTransport t

theorem Reachable.detached_eq (h : w.Reachable) (htimeout : 0 < w.plan.shutdownTimeout) :
    w.detached = [] := by
  rcases h with ⟨plan, device, cancelAt, errands, t, rfl⟩
  have hleaves := leavesNone_run errands { world := { plan, device, cancelAt } }
  exact hleaves.detached_eq (Nat.lt_of_lt_of_eq htimeout hleaves.timeout_eq) rfl

/-- A shutdown comes to an end when the stop of the transport does or the timeout is over, and its
answer says which came first.  Either way the loops end and report it, the device stays as it was,
and nothing stirs in any script that goes on from there.  A shutdown that answers well has waited
for the loops, and reports those that have failed. -/
structure ClosesOnTime (w : World) : Prop where
  now_eq : (shutdown w).state.now =
    w.now + min w.plan.transport.stopDelay w.plan.shutdownTimeout
  ok_iff : (shutdown w).answer = .ok () ↔ w.plan.transport.stopDelay < w.plan.shutdownTimeout
  completed : w.plan.transport.stopDelay < w.plan.shutdownTimeout →
    (shutdown w).state.stops = w.stops + 1
  cutOff : w.plan.shutdownTimeout < w.plan.transport.stopDelay →
    (shutdown w).answer = .error (.shutdownTimeout w.plan.shutdownTimeout) ∧
      (shutdown w).state.stops = w.stops
  stopCalls_eq : (shutdown w).state.stopCalls = w.stopCalls + 1
  device_eq : (shutdown w).state.device = w.device
  reported : ∀ l ∈ w.loops, 0 < l.period → l.task.stopEvent ∈ (shutdown w).events
  failures : (shutdown w).answer = .ok () → ∀ l ∈ w.failing, .taskFailed ∈ (shutdown w).events
  dormant : (shutdown w).state.Dormant
  -- Among what lies still are the stops: one that was cut off does not complete later.
  afterwards : ∀ errands : List Errand,
    (shutdown w).state.LiesStill (explicitOperations errands)
      (Chronicle.run { world := (shutdown w).state } errands).world

theorem closesOnTime_of_running (hphase : w.phase = .running) (hdetached : w.detached = [])
    (htimeout : 0 < w.plan.shutdownTimeout)
    (hapart : w.plan.transport.stopDelay ≠ w.plan.shutdownTimeout) : w.ClosesOnTime := by
  rcases shutdown_eq_closedDown (not_resting_of_running hphase) hdetached htimeout with
    ⟨hanswer, hstate, hreported, hfailures⟩
  have hdormant : (shutdown w).state.Dormant := by
    rw [hstate]
    exact ⟨rfl, rfl, rfl, rfl, rfl⟩
  have hstops : (shutdown w).state.stops = if w.StopsInTime then w.stops + 1 else w.stops :=
    congrArg World.stops hstate
  have hintime : w.StopsInTime ↔ w.plan.transport.stopDelay < w.plan.shutdownTimeout :=
    ⟨fun hle => Nat.lt_of_le_of_ne hle hapart, Nat.le_of_lt⟩
  have hdevice : (shutdown w).state.device = w.device := by
    rw [hstate]
    rfl
  refine ⟨congrArg World.now hstate, ?_, ?_, ?_, congrArg World.stopCalls hstate, hdevice,
    hreported, hfailures, hdormant, Dormant.run { world := (shutdown w).state } hdormant⟩
  · rw [hanswer, ← hintime]
    split
    · rename_i h
      exact ⟨fun _ => h, fun _ => rfl⟩
    · rename_i h
      exact ⟨nofun, fun h' => absurd h' h⟩
  · intro hlt
    rw [hstops, if_pos (hintime.mpr hlt)]
  · intro hgt
    have hlate : ¬ w.StopsInTime := Nat.not_le.mpr hgt
    rw [hanswer, hstops, if_neg hlate, if_neg hlate]
    exact ⟨rfl, rfl⟩

end World

/-- Whatever a script has done before, a shutdown of a running device that has any time at all comes
to its end on time; one of a device that rests answers well at once and does nothing but mark it as
stopped. -/
theorem shutdown_within_deadline (w : World) (h : w.Reachable) :
    (w.phase = .running → 0 < w.plan.shutdownTimeout →
      w.plan.transport.stopDelay ≠ w.plan.shutdownTimeout → w.ClosesOnTime) ∧
    (w.phase = .idle ∨ w.phase = .stopped →
      (World.shutdown w).answer = .ok () ∧
        (World.shutdown w).state = { w with phase := .stopped } ∧
        (World.shutdown w).events = [.transition w.phase .stopped]) := by
  refine ⟨?_, ?_⟩
  · intro hphase htimeout hapart
    exact World.closesOnTime_of_running hphase (h.detached_eq htimeout) htimeout hapart
  · intro hresting
    rcases World.shutdown_of_resting hresting with ⟨hanswer, hstate⟩
    exact ⟨hanswer, hstate, World.events_shutdown_of_resting hresting⟩

/-- A device that was started twice and whose transport takes a minute to stop is given up after
five seconds.  It has four loops then, and later only an operation moves its counter.  A device that
was cancelled and then started in vain is not drained, and keeps its two loops. -/
theorem startedTwice_given_up_at_deadline :
    let slow : World := (Chronicle.ofScript {} fourCellDevice none
      [⟨.start, {}⟩, ⟨.start, {}⟩]).world.withTransport { stopDelay := 60000 }
    let stopped : World := (Chronicle.ofScript {} fourCellDevice none
      [⟨.start, {}⟩, ⟨.cancel, {}⟩, ⟨.start, {}⟩]).world.withTransport {}
    slow.loops.length = 4 ∧
      (World.shutdown slow).answer = .error (.shutdownTimeout 5000) ∧
      (World.shutdown slow).state.now = 5000 ∧
      (Chronicle.run { world := (World.shutdown slow).state }
        [⟨.sleep 90000, {}⟩, ⟨.start, {}⟩, ⟨.device [.increment], {}⟩]).world.device.counter = 1 ∧
      (World.shutdown stopped).answer = .ok () ∧
      (World.shutdown stopped).state.loops.length = 2 ∧
      (World.shutdown stopped).state.stopCalls = 0 := by
  intro slow stopped
  have hslow : slow.Reachable := ⟨{}, fourCellDevice, none, _, _, rfl⟩
  have hstopped : stopped.Reachable := ⟨{}, fourCellDevice, none, _, _, rfl⟩
  have hcloses := (shutdown_within_deadline slow hslow).1 rfl (by decide) (by decide)
  have hlater := hcloses.afterwards
    [⟨.sleep 90000, {}⟩, ⟨.start, {}⟩, ⟨.device [.increment], {}⟩]
  rcases (shutdown_within_deadline stopped hstopped).2 (Or.inr rfl) with ⟨hanswer, hstate, -⟩
  refine ⟨rfl, (hcloses.cutOff (by decide)).1, hcloses.now_eq, ?_, hanswer, ?_, ?_⟩
  · rw [hlater.device_eq, hcloses.device_eq]
    rfl
  · rw [hstate]
    rfl
  · rw [hstate]
    rfl

end Fieldbus
