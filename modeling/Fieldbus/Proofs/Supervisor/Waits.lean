import Fieldbus.Proofs.Supervisor.Passage
import Fieldbus.Supervisor.Script

/-!
# Waits of the main task

A wait is made of turns of the tasks beside the main one and of stretches in which time passes.
Whatever both of these uphold, every wait upholds, and so does a row of attempts to start the
transport if what the transport does and what is reported of it do, and a drain if the end of a stop
does.  Time passes only from a world that may pass to the instant (`MayPass`): the token is not due
to be fired on the way, and no loop has outlived it.
-/

namespace Fieldbus

/-- The event tells of an attempt to start the transport. -/
def Event.OfAttempt : Event → Prop
  | .startRetried .. | .startAttempted _ | .startFailed .. => True
  | _ => False

namespace World

open Process

variable {w : World} {limit : Nat}

/-! ## After a turn -/

theorem now_turn (w : World) : (turn w).state.now = w.now := by
  have hcontrol := congrArg Control.now (control_turn w)
  split at hcontrol
  · exact hcontrol
  · exact hcontrol

theorem plan_turn (w : World) : (turn w).state.plan = w.plan := by
  have hcontrol := congrArg Control.plan (control_turn w)
  split at hcontrol
  · exact hcontrol
  · exact hcontrol

/-- A cancellation that is left after a turn lies ahead. -/
theorem ahead_turn {c : Nat} (hc : (turn w).state.cancelAt = some c) : (turn w).state.now ≤ c := by
  have hcontrol := control_turn w
  split at hcontrol
  · cases hc.symm.trans (congrArg Control.cancelAt hcontrol)
  · rename_i hdue
    have hleft : w.cancelAt = some c := (congrArg Control.cancelAt hcontrol).symm.trans hc
    rw [now_turn]
    exact Nat.le_of_lt (Nat.not_le.mp fun hle => hdue ⟨c, hleft, hle⟩)

/-- A turn after which the token has fired has ended all loops. -/
theorem turn_of_fired (hfired : (turn w).state.fired = true) :
    (turn w).state.loops = [] ∧ (turn w).state.detached = [] := by
  let begun : World := (beginTurn (cancelTurn w).state).state
  have hstate : (turn w).state =
      ((if begun.fired then endTurn else tickTurn : Process World Unit) begun).state := rfl
  rw [hstate] at hfired ⊢
  cases hbegun : begun.fired with
  | true => exact ⟨rfl, rfl⟩
  | false =>
    rw [hbegun] at hfired
    cases hbegun.symm.trans hfired

/-- Time passes to the instant at which the token is to be fired, and there it is fired. -/
theorem control_turn_passUntil {c : Nat} (hc : w.cancelAt = some c) :
    (turn (passUntil c w).state).state.control =
      { w.control with now := c, fired := true, cancelAt := none } := by
  have hpass := control_passUntil c w
  have hdue : (passUntil c w).state.CancelDue :=
    ⟨c, (congrArg Control.cancelAt hpass).trans hc, Nat.le_of_eq (congrArg Control.now hpass)⟩
  rw [control_turn, if_pos hdue]
  exact congrArg (fun t => { t with fired := true, cancelAt := none }) hpass

/-! ## Whole waits -/

/-- Time may pass up to an instant: it lies ahead, the token is not fired before it, and if the
token has fired, no loop is left. -/
structure MayPass (w : World) (limit : Nat) : Prop where
  ahead : w.now ≤ limit
  undisturbed : ∀ c ∈ w.cancelAt, limit ≤ c
  ended : w.fired = true → w.loops = []

theorem mayPass_turn (hahead : (turn w).state.now ≤ limit)
    (hundisturbed : ∀ c ∈ (turn w).state.cancelAt, limit ≤ c) : (turn w).state.MayPass limit :=
  ⟨hahead, hundisturbed, fun hfired => (turn_of_fired hfired).1⟩

/-- After a turn, time may pass to the instant at which the token is to be fired. -/
theorem mayPass_turn_cut {c : Nat} (hc : (turn w).state.cancelAt = some c) :
    (turn w).state.MayPass c := by
  refine mayPass_turn (ahead_turn hc) ?_
  intro instant hinstant
  cases hc.symm.trans hinstant
  exact Nat.le_refl c

theorem mayPass_turn_late {c : Nat} (hahead : (turn w).state.now ≤ limit)
    (hc : (turn w).state.cancelAt = some c) (hlate : ¬ c < limit) :
    (turn w).state.MayPass limit := by
  refine mayPass_turn hahead ?_
  intro instant hinstant
  cases hc.symm.trans hinstant
  exact Nat.not_lt.mp hlate

theorem mayPass_turn_of_none (hahead : (turn w).state.now ≤ limit)
    (hc : (turn w).state.cancelAt = none) : (turn w).state.MayPass limit := by
  refine mayPass_turn hahead ?_
  rw [hc]
  exact nofun

section

variable {R : World → List Event → World → Prop} [Cumulative R]
  (hturn : ∀ w, Upholds R turn w)
  (hpass : ∀ {w : World} {limit : Nat}, w.MayPass limit → Upholds R (passUntil limit) w)

include hturn hpass

/-- In a wait of the main task, the token is fired on the way or it is not. -/
theorem upholds_sleepUntil (hnow : w.now ≤ limit) : Upholds R (sleepUntil limit) w := by
  unfold sleepUntil
  refine (hturn w).bind (.get_bind ?_)
  rw [← now_turn] at hnow
  cases hc : (turn w).state.cancelAt with
  | none => exact hpass (mayPass_turn_of_none hnow hc)
  | some c =>
    dsimp only
    split
    · -- The token is fired on the way, and time passes without the loops.
      rename_i hcut
      have hcontrol := control_turn_passUntil hc
      have hnow' : (turn (passUntil c (turn w).state).state).state.now ≤ limit :=
        Nat.le_trans (Nat.le_of_eq (congrArg Control.now hcontrol)) (Nat.le_of_lt hcut)
      refine (hpass (mayPass_turn_cut hc)).bind ((hturn _).bind ?_)
      exact hpass (mayPass_turn_of_none hnow' (congrArg Control.cancelAt hcontrol))
    · -- It is to be fired later, or just when the wait is over.
      rename_i hlate
      exact hpass (mayPass_turn_late hnow hc hlate)

theorem upholds_step_sleep (span : Nat) (w : World) : Upholds R (step (.sleep span)) w := by
  by_cases hspan : span = 0
  · subst hspan
    exact .pure _ w
  · simp only [step, hspan, ne_eq, not_false_eq_true, if_true]
    exact .get_bind ((upholds_sleepUntil hturn hpass (Nat.le_add_right ..)).bind (.pure _ _))

theorem upholds_sleepUnlessFired (hnow : w.now ≤ limit) :
    Upholds R (sleepUnlessFired limit) w := by
  unfold sleepUnlessFired
  refine (hturn w).bind (.get_bind ?_)
  rw [← now_turn] at hnow
  split
  · exact .pure true _
  · refine .get_bind ?_
    cases hc : (turn w).state.cancelAt with
    | none => exact (hpass (mayPass_turn_of_none hnow hc)).bind (.pure false _)
    | some c =>
      dsimp only
      split
      · exact (hpass (mayPass_turn_cut hc)).bind ((hturn _).bind (.pure true _))
      · rename_i hlate
        exact (hpass (mayPass_turn_late hnow hc hlate)).bind (.pure false _)

theorem upholds_awaitToken (w : World) : Upholds R awaitToken w := by
  unfold awaitToken
  refine .get_bind ?_
  split
  · exact .pure () w
  · refine (hturn w).bind (.get_bind ?_)
    split
    · exact .pure () _
    · refine .get_bind ?_
      cases hc : (turn w).state.cancelAt with
      | none => exact .pure () _
      | some c => exact (hpass (mayPass_turn_cut hc)).bind (hturn _)

theorem upholds_pause (span : Nat) (w : World) : Upholds R (pause span) w := by
  unfold pause
  split
  · exact .pure false w
  · exact .get_bind (upholds_sleepUnlessFired hturn hpass (Nat.le_add_right ..))

end

/-- What is settled before a start and at its end: no wait and no attempt changes it. -/
structure SameTerms (w : World) (events : List Event) (w' : World) : Prop where
  plan_eq : w'.plan = w.plan
  stops_eq : w'.stops = w.stops

instance : Cumulative SameTerms where
  nil _ := ⟨rfl, rfl⟩
  append h h' := ⟨h'.plan_eq.trans h.plan_eq, h'.stops_eq.trans h.stops_eq⟩

theorem sameTerms_turn (w : World) : Upholds SameTerms turn w := by
  refine ⟨plan_turn w, ?_⟩
  have hcontrol := congrArg Control.stops (control_turn w)
  split at hcontrol
  · exact hcontrol
  · exact hcontrol

theorem sameTerms_passUntil (limit : Nat) (w : World) : Upholds SameTerms (passUntil limit) w :=
  have hcontrol := control_passUntil limit w
  ⟨congrArg Control.plan hcontrol, congrArg Control.stops hcontrol⟩

theorem sameTerms_pause (span : Nat) (w : World) : Upholds SameTerms (pause span) w :=
  upholds_pause sameTerms_turn (fun _ => sameTerms_passUntil _ _) span w

/-! ## Attempts -/

theorem ofAttempt_announce (attempt : Nat) (w : World) :
    ∀ e ∈ (announce attempt w).events, e.OfAttempt := by
  have hevents : (announce attempt w).events =
      (if 1 < attempt then [.startRetried attempt w.plan.retry.maxAttempts] else []) ++
        [.startAttempted attempt] := rfl
  intro e he
  rw [hevents] at he
  rcases List.mem_append.mp he with he | he
  · split at he
    · rw [List.mem_singleton.mp he]
      trivial
    · cases he
  · rw [List.mem_singleton.mp he]
    trivial

theorem ofAttempt_events (attempt : Nat) (ending : Attempt) :
    ∀ e ∈ ending.events attempt, e.OfAttempt := by
  cases ending with
  | failed reason =>
    intro e he
    rw [List.mem_singleton.mp he]
    trivial
  | up | cancelled => exact nofun

section

variable {R : World → List Event → World → Prop} [Cumulative R]
  (hturn : ∀ w, Upholds R turn w)
  (hpass : ∀ {w : World} {limit : Nat}, w.MayPass limit → Upholds R (passUntil limit) w)
  (hcalled : ∀ w : World, R w [] w.called)
  (hup : ∀ w : World, R w w.plan.transport.upEvents w)

include hturn hpass hcalled hup

/-- The transport is told to start, which takes a pause, and reports that it is up if it is. -/
theorem upholds_callStart (w : World) : Upholds R callStart w := by
  have hterms := sameTerms_pause w.plan.transport.startDelay w.called
  have hreport := hup (pause w.plan.transport.startDelay w.called).state
  rw [hterms.plan_eq] at hreport
  unfold callStart
  refine Upholds.bind (hcalled w : Upholds R (modify called) w) (.get_bind ?_)
  refine (upholds_pause hturn hpass _ _).bind ?_
  split
  · exact .pure _ _
  · split
    · exact .pure _ _
    · exact Upholds.bind (hreport : Upholds R (reportAll _) _) (.pure _ _)

theorem upholds_attemptStart
    (hreports : ∀ (w : World) (events : List Event), (∀ e ∈ events, e.OfAttempt) → R w events w)
    (attempt : Nat) (w : World) : Upholds R (attemptStart attempt) w := by
  have hbegins : Upholds R (announce attempt) w := hreports w _ (ofAttempt_announce attempt w)
  unfold attemptStart Stage.attemptStart
  refine Upholds.bind hbegins ((upholds_callStart hturn hpass hcalled hup _).bind ?_)
  exact Upholds.bind (hreports _ _ (ofAttempt_events attempt _) : Upholds R (reportAll _) _)
    (.pure _ _)

/-- What every attempt to start the transport upholds, a row of attempts upholds. -/
theorem upholds_attempts
    (hreports : ∀ (w : World) (events : List Event), (∀ e ∈ events, e.OfAttempt) → R w events w)
    (retries : Nat) : ∀ attempt w, Upholds R (attempts attempt retries) w := by
  have hattempt := upholds_attemptStart hturn hpass hcalled hup hreports
  -- By induction on the attempts that are left, along how the first of them ends.
  induction retries with
  | zero =>
    intro attempt w
    refine (hattempt attempt w).bind ?_
    cases (attemptStart attempt w).answer with
    | up => exact .pure _ _
    | cancelled => exact .pure _ _
    | failed reason => exact .pure _ _
  | succ retries ih =>
    intro attempt w
    refine (hattempt attempt w).bind ?_
    cases (attemptStart attempt w).answer with
    | up => exact .pure _ _
    | cancelled => exact .pure _ _
    | failed reason =>
      refine .get_bind ((upholds_pause hturn hpass _ _).bind ?_)
      split
      · exact .pure _ _
      · exact ih (attempt + 1) _

end

/-! ## Drains -/

/-- Of the loops that are waited for, those that have failed are reported. -/
theorem events_joinLoops (w : World) : (joinLoops w).events = w.failed.map fun _ => .taskFailed :=
  List.append_nil _

theorem eq_taskFailed_of_joinLoops {e : Event} (he : e ∈ (joinLoops w).events) :
    e = .taskFailed := by
  rw [events_joinLoops] at he
  rcases List.mem_map.mp he with ⟨_, -, rfl⟩
  rfl

/-- A drain waits at most once, and the loops have had a turn when time passes. -/
theorem upholds_drain {R : World → List Event → World → Prop} [Cumulative R]
    (hturn : ∀ w, Upholds R turn w)
    (hpass : ∀ limit, w.now ≤ limit → Upholds R (passUntil limit) (turn w).state)
    (hstop : ∀ w' : World, w'.plan = w.plan → Upholds R completeStop w')
    (hjoin : ∀ w' : World, Upholds R joinLoops w') : Upholds R drain w := by
  unfold drain
  refine .get_bind ?_
  dsimp only
  split
  · -- The stop takes no time.
    refine (hstop w rfl).bind ((hjoin _).bind ?_)
    split
    · exact .pure true _
    · split
      · exact .pure false _
      · exact (hturn _).bind ((hjoin _).bind (.pure true _))
  · split
    · exact .pure false w
    · refine (hturn w).bind ((hpass _ (Nat.le_add_right ..)).bind ?_)
      split
      · have hplan := congrArg Control.plan (control_passUntil
          (w.now + min w.plan.transport.stopDelay w.plan.shutdownTimeout) (turn w).state)
        exact (hstop _ (hplan.trans (plan_turn w))).bind ((hjoin _).bind (.pure true _))
      · exact .pure false _

end World

end Fieldbus
