import Fieldbus.Proofs.Supervisor.Shutdown

/-!
# Transitions of the lifecycle

The moves that a run reports form one path through the lifecycle, and what a run does beside them
goes with its moves: the transport is told to stop, and the supervisor fires the token, when a
device is drained and at no other time, and two loops are spawned whenever a device comes up.
`World.Course` says so of a stretch of a run; a chronicle follows a script whose every step may find
the transport behaving in another way.
-/

namespace Fieldbus

/-! ## Paths through the lifecycle -/

namespace Lifecycle

/-- The moves lead from one state to another: each begins where the one before it ended, and each
can occur. -/
inductive Path : Lifecycle → List (Lifecycle × Lifecycle) → Lifecycle → Prop where
  | nil (s : Lifecycle) : Path s [] s
  | cons {s t u : Lifecycle} {moves : List (Lifecycle × Lifecycle)} :
      Next s t → Path t moves u → Path s ((s, t) :: moves) u

/-- The states of a device between two operations. -/
def Settled (s : Lifecycle) : Prop :=
  s = .idle ∨ s = .running ∨ s = .stopped

namespace Path

variable {s t u : Lifecycle}

theorem append {before after : List (Lifecycle × Lifecycle)} (h : Path s before t)
    (h' : Path t after u) : Path s (before ++ after) u := by
  induction h with
  | nil s => exact h'
  | cons hnext _ ih => exact .cons hnext (ih h')

theorem single (h : Next s t) : Path s [(s, t)] t :=
  .cons h (.nil t)

/-- A path ends where its last move does. -/
theorem eq_of_last (before : List (Lifecycle × Lifecycle)) {source target : Lifecycle}
    (h : Path s (before ++ [(source, target)]) t) : t = target := by
  induction before generalizing s with
  | nil =>
    cases h with
    | cons _ hrest =>
      cases hrest
      rfl
  | cons move before ih =>
    cases h with
    | cons _ hrest => exact ih hrest

end Path

end Lifecycle

/-! ## What goes with the moves -/

/-- The two loops that a device brings with it when it comes up. -/
def Plan.spawns (plan : Plan) : List (Task × Nat) :=
  [(.counter, plan.counterPeriod), (.health, plan.healthPeriod)]

/-- The loops that moves bring with them. -/
def Plan.spawnedBy (plan : Plan) (moves : List (Lifecycle × Lifecycle)) : List (Task × Nat) :=
  moves.flatMap fun move => if move = (.starting, .running) then plan.spawns else []

theorem Plan.spawnedBy_append (plan : Plan) (before after : List (Lifecycle × Lifecycle)) :
    plan.spawnedBy (before ++ after) = plan.spawnedBy before ++ plan.spawnedBy after :=
  List.flatMap_append

theorem Plan.spawnedBy_eq_nil (plan : Plan) {moves : List (Lifecycle × Lifecycle)}
    (h : (.starting, .running) ∉ moves) : plan.spawnedBy moves = [] := by
  refine List.flatMap_eq_nil_iff.mpr ?_
  intro move hmove
  refine if_neg ?_
  rintro rfl
  exact h hmove

namespace World

open Process

/-- The loops that have not ended, also those that are left to themselves. -/
def living (w : World) : List (Task × Nat) :=
  (w.detached ++ w.loops).map Loop.kind

theorem LapsesTo.living {w w' : World} {events : List Event} (h : w.LapsesTo events w') :
    w'.living.Sublist w.living := by
  rw [World.living, World.living, List.map_append, List.map_append]
  exact h.detached.sublist.append h.loops.sublist

theorem LapsesTo.lasting_eq {w w' : World} {events : List Event} (h : w.LapsesTo events w')
    (hfired : w'.fired = false) : Loop.lasting w'.living = Loop.lasting w.living := by
  rw [World.living, World.living, List.map_append, List.map_append, Loop.lasting_append,
    Loop.lasting_append, h.detached.lasting_eq hfired, h.loops.lasting_eq hfired]

theorem living_spawnLoops (w : World) : (spawnLoops w).living = w.living ++ w.plan.spawns := by
  rw [living, living, spawnLoops, ← List.append_assoc, List.map_append]
  rfl

/-- A later world is reached by certain moves, and all that happened on the way goes with them.
`cancelled` says whether the token may have been fired from outside at once; that it was to be fired
later can be seen from the world before. -/
structure Course (cancelled : Prop) (w : World) (moves : List (Lifecycle × Lifecycle))
    (w' : World) : Prop where
  path : Lifecycle.Path w.phase moves w'.phase
  spawns_eq : w'.plan.spawns = w.plan.spawns
  stopCalls_eq : w'.stopCalls = w.stopCalls + moves.count (.running, .draining)
  now_le : w.now ≤ w'.now
  cancelAt : ∀ instant ∈ w'.cancelAt, instant ∈ w.cancelAt
  fired : w.fired = true ∨ (.running, .draining) ∈ moves → w'.fired = true
  firing : w'.fired = true → w.fired = true ∨ (.running, .draining) ∈ moves ∨ cancelled ∨
    ∃ instant ∈ w.cancelAt, instant ≤ w'.now
  released : w.released = true → w'.released = true
  living : w'.living.Sublist (w.living ++ w.plan.spawnedBy moves)
  lasting_eq : w'.fired = false → w'.released = false →
    Loop.lasting w'.living = Loop.lasting (w.living ++ w.plan.spawnedBy moves)

namespace Course

variable {c : Prop} {w w' w'' : World} {before after moves : List (Lifecycle × Lifecycle)}

theorem spawnedBy_eq (h : Course c w before w') : w'.plan.spawnedBy = w.plan.spawnedBy := by
  funext moves
  rw [Plan.spawnedBy, Plan.spawnedBy, h.spawns_eq]

theorem trans (h : Course c w before w') (h' : Course c w' after w'') :
    Course c w (before ++ after) w'' where
  path := h.path.append h'.path
  spawns_eq := h'.spawns_eq.trans h.spawns_eq
  stopCalls_eq := by rw [h'.stopCalls_eq, h.stopCalls_eq, List.count_append, Nat.add_assoc]
  now_le := Nat.le_trans h.now_le h'.now_le
  cancelAt := fun instant hinstant => h.cancelAt instant (h'.cancelAt instant hinstant)
  fired := by
    rintro (hfired | hmove)
    · exact h'.fired (Or.inl (h.fired (Or.inl hfired)))
    · rcases List.mem_append.mp hmove with hmove | hmove
      · exact h'.fired (Or.inl (h.fired (Or.inr hmove)))
      · exact h'.fired (Or.inr hmove)
  firing := by
    intro hfired
    rcases h'.firing hfired with hbefore | hmove | hcancelled | ⟨instant, hinstant, hle⟩
    · rcases h.firing hbefore with hbefore | hmove | hcancelled | ⟨instant, hinstant, hle⟩
      · exact Or.inl hbefore
      · exact Or.inr (Or.inl (List.mem_append_left _ hmove))
      · exact Or.inr (Or.inr (Or.inl hcancelled))
      · exact Or.inr (Or.inr (Or.inr ⟨instant, hinstant, Nat.le_trans hle h'.now_le⟩))
    · exact Or.inr (Or.inl (List.mem_append_right _ hmove))
    · exact Or.inr (Or.inr (Or.inl hcancelled))
    · exact Or.inr (Or.inr (Or.inr ⟨instant, h.cancelAt instant hinstant, hle⟩))
  released := h'.released ∘ h.released
  living := by
    have hlater := h'.living
    rw [h.spawnedBy_eq] at hlater
    rw [Plan.spawnedBy_append, ← List.append_assoc]
    exact hlater.trans (h.living.append_right _)
  lasting_eq := by
    intro hfired hreleased
    -- Neither had the token fired half way, nor had the supervisor been given up.
    have hfired' : w'.fired = false :=
      Bool.eq_false_iff.mpr fun hf => Bool.eq_false_iff.mp hfired (h'.fired (Or.inl hf))
    have hreleased' : w'.released = false :=
      Bool.eq_false_iff.mpr fun hr => Bool.eq_false_iff.mp hreleased (h'.released hr)
    rw [h'.lasting_eq hfired hreleased, h.spawnedBy_eq, Plan.spawnedBy_append, ← List.append_assoc,
      Loop.lasting_append, Loop.lasting_append (w.living ++ _), h.lasting_eq hfired' hreleased']

/-- Time passes and the lifecycle moves, but the device neither comes up nor is drained. -/
theorem of_lapse {events : List Event} {t : Lifecycle} (h : w.LapsesTo events w')
    (hpath : Lifecycle.Path w.phase moves t) (hdrain : (.running, .draining) ∉ moves)
    (hspawn : (.starting, .running) ∉ moves) : Course c w moves { w' with phase := t } where
  path := hpath
  spawns_eq := congrArg Plan.spawns h.control.plan_eq
  stopCalls_eq := by
    rw [List.count_eq_zero.mpr hdrain]
    exact h.control.stopCalls_eq
  now_le := h.control.now_le
  cancelAt := h.control.cancelAt
  fired := fun hcause => h.fired (hcause.resolve_right hdrain)
  firing := fun hfired => (h.control.firing hfired).imp_right fun h => Or.inr (Or.inr h)
  released := fun hreleased => h.control.released_eq.trans hreleased
  living := by
    rw [Plan.spawnedBy_eq_nil _ hspawn, List.append_nil]
    exact h.living
  lasting_eq := by
    intro hfired _
    rw [Plan.spawnedBy_eq_nil _ hspawn, List.append_nil]
    exact h.lasting_eq hfired

/-- Time passes, and the lifecycle does not move. -/
theorem of_rest {events : List Event} (h : w.LapsesTo events w') : Course c w [] w' := by
  have hcourse : Course c w [] { w' with phase := w.phase } :=
    of_lapse h (.nil _) List.not_mem_nil List.not_mem_nil
  rw [← h.phase_eq] at hcourse
  exact hcourse

/-- The device comes up. -/
theorem comeUp (w : World) (hphase : w.phase = .starting) :
    Course c w [(.starting, .running)] { spawnLoops w with phase := .running } := by
  have hliving : World.living { spawnLoops w with phase := .running } =
      w.living ++ w.plan.spawnedBy [(.starting, .running)] :=
    living_spawnLoops w
  refine ⟨?_, rfl, rfl, Nat.le_refl _, fun _ => id, ?_, Or.inl, id, ?_, fun _ _ => ?_⟩
  · rw [hphase]
    exact .single .succeed
  · rintro (hfired | hmove)
    · exact hfired
    · cases List.mem_singleton.mp hmove
  · exact hliving ▸ List.Sublist.refl _
  · rw [hliving]

/-- The device begins to be drained. -/
theorem goDown (w : World) (hphase : w.phase = .running) :
    Course c w [(.running, .draining)] w.draining := by
  have hliving : w.draining.living = w.living ++ w.plan.spawnedBy [(.running, .draining)] :=
    (List.append_nil _).symm
  refine ⟨?_, rfl, rfl, Nat.le_refl _, nofun, fun _ => rfl, ?_, id, ?_, nofun⟩
  · rw [hphase]
    exact .single .drain
  · exact fun _ => Or.inr (Or.inl (List.mem_singleton_self _))
  · exact hliving ▸ List.Sublist.refl _

/-- The token is fired from outside. -/
theorem cancel (hcancelled : c) (w : World) : Course c w [] w.fire := by
  have hliving : w.fire.living = w.living ++ w.plan.spawnedBy [] := (List.append_nil _).symm
  refine ⟨.nil _, rfl, rfl, Nat.le_refl _, nofun, fun _ => rfl, ?_, id, ?_, nofun⟩
  · exact fun _ => Or.inr (Or.inr (Or.inl hcancelled))
  · exact hliving ▸ List.Sublist.refl _

/-- Loops that are left to themselves are still there. -/
theorem detach (w : World) : Course c w [] w.detachLoops := by
  have hliving : w.detachLoops.living = w.living ++ w.plan.spawnedBy [] := by
    simp only [World.living, detachLoops, List.append_nil]
    exact (List.append_nil _).symm
  refine ⟨.nil _, rfl, rfl, Nat.le_refl _, fun _ => id, ?_, Or.inl, id, ?_, fun _ _ => ?_⟩
  · exact fun hcause => hcause.resolve_right List.not_mem_nil
  · exact hliving ▸ List.Sublist.refl _
  · rw [hliving]

/-- A supervisor that is given up takes its loops with it. -/
theorem giveUp (w : World) : Course c w [] w.release := by
  refine ⟨.nil _, rfl, rfl, Nat.le_refl _, fun _ => id, ?_, Or.inl, fun _ => rfl, ?_, nofun⟩
  · exact fun hcause => hcause.resolve_right List.not_mem_nil
  · have hliving : w.release.living = w.detached.map Loop.kind :=
      congrArg _ (List.append_nil _)
    have hspawned : w.living ++ w.plan.spawnedBy [] = w.living := List.append_nil _
    rw [hliving, hspawned, World.living, List.map_append]
    exact List.sublist_append_left _ _

end Course

/-- An outcome reports certain moves and has been reached by them. -/
structure Takes {α : Type} (cancelled : Prop) (w : World) (moves : List (Lifecycle × Lifecycle))
    (o : Outcome World α) : Prop where
  reported : transitions o.events = moves
  plan_eq : o.state.plan = w.plan
  course : Course cancelled w moves o.state

variable {c : Prop} {α β : Type} {w : World}

theorem Takes.bind {p : Process World α} {f : α → Process World β}
    {before after : List (Lifecycle × Lifecycle)} (h : Takes c w before (p w))
    (h' : Takes c (p w).state after (f (p w).answer (p w).state)) :
    Takes c w (before ++ after) ((p >>= f) w) where
  reported := by rw [events_bind, transitions_append, h.reported, h'.reported]
  plan_eq := h'.plan_eq.trans h.plan_eq
  course := h.course.trans h'.course

theorem Takes.bind_rest {p : Process World α} {f : α → Process World β}
    {moves : List (Lifecycle × Lifecycle)} (h : Takes c w moves (p w))
    (h' : Takes c (p w).state [] (f (p w).answer (p w).state)) : Takes c w moves ((p >>= f) w) := by
  have hbind := h.bind h'
  rw [List.append_nil] at hbind
  exact hbind

theorem Takes.of_rest {p : Process World α} (hplain : w.plan.transport.Plain)
    (h : Upholds LapsesTo p w) : Takes c w [] (p w) :=
  ⟨h.silent hplain, h.control.plan_eq, .of_rest h⟩

theorem Takes.plain {o : Outcome World α} {moves : List (Lifecycle × Lifecycle)}
    (h : Takes c w moves o) (hplain : w.plan.transport.Plain) : o.state.plan.transport.Plain := by
  rw [h.plan_eq]
  exact hplain

theorem Takes.pure (a : α) (w : World) : Takes c w [] ((Pure.pure a : Process World α) w) :=
  ⟨rfl, rfl, .of_rest (Cumulative.nil w)⟩

/-! ## Starts, shutdowns and whole runs -/

/-- A start goes through `starting` to `running` if it succeeds, and to `stopped` if it fails. -/
theorem takes_start (hplain : w.plan.transport.Plain) (hphase : w.phase.Settled) :
    ((∃ e, (start w).answer = .error e) ∧
        Takes c w [(w.phase, .starting), (.starting, .stopped)] (start w)) ∨
      ((start w).answer = .ok () ∧
        Takes c w [(w.phase, .starting), (.starting, .running)] (start w)) := by
  have hbegin : Lifecycle.Next w.phase .starting := .start hphase
  rcases start_cases w with
    ⟨events, w', hlapse, ⟨e, herror, hstate, hevents⟩ | ⟨-, hok, hstate, hevents⟩⟩
  · refine Or.inl ⟨⟨e, herror⟩, ?_, ?_, ?_⟩
    · rw [hevents, transitions_transition, transitions_append, hlapse.silent hplain]
      rfl
    · rw [hstate]
      exact hlapse.control.plan_eq
    · rw [hstate]
      exact .of_lapse hlapse (.cons hbegin (.single .abandon)) (by simp) (by simp)
  · refine Or.inr ⟨hok, ?_, ?_, ?_⟩
    · rw [hevents, transitions_transition, transitions_append, hlapse.silent hplain]
      rfl
    · rw [hstate]
      exact hlapse.control.plan_eq
    · rw [hstate]
      -- Time has passed since the device began to start; the loops are spawned at the end of it.
      have hstarting : Course c w [(w.phase, .starting)] { w' with phase := .starting } :=
        .of_lapse hlapse (.single hbegin) (by simp) (by simp)
      exact hstarting.trans (.comeUp _ rfl)

/-- A start that succeeds spawns two loops, beside what is left of those before. -/
theorem living_start_of_ok (hok : (start w).answer = .ok ()) :
    ∃ earlier, earlier.Sublist w.living ∧ (start w).state.living = earlier ++ w.plan.spawns := by
  rcases start_cases w with
    ⟨_, w', hlapse, ⟨e, herror, -, -⟩ | ⟨-, -, hstate, -⟩⟩
  · cases herror.symm.trans hok
  · have hplan : w'.plan = w.plan := hlapse.control.plan_eq
    refine ⟨w'.living, hlapse.living, ?_⟩
    rw [hstate, ← hplan]
    exact living_spawnLoops w'

theorem takes_shutdown_of_resting (hphase : w.phase = .idle ∨ w.phase = .stopped) :
    Takes c w [(w.phase, .stopped)] (shutdown w) := by
  refine ⟨?_, ?_, ?_⟩
  · rw [events_shutdown_of_resting hphase]
    rfl
  · rw [(shutdown_of_resting hphase).2]
  · rw [(shutdown_of_resting hphase).2]
    exact .of_lapse (Cumulative.nil w) (.single (.settle hphase)) (by simp) (by simp)

/-- A running device is drained and then stopped, whether that is done in time or not. -/
theorem takes_shutdown_of_running (hplain : w.plan.transport.Plain) (hphase : w.phase = .running) :
    Takes c w [(.running, .draining), (.draining, .stopped)] (shutdown w) := by
  have hbusy := not_resting_of_running hphase
  have hlapse : w.draining.LapsesTo (drain w.draining).events (drain w.draining).state :=
    lapses_drain w.draining
  have hquiet : transitions (drain w.draining).events = [] := hlapse.silent hplain
  have hplan : (drain w.draining).state.plan = w.plan := hlapse.control.plan_eq
  have hstopped : Course c w [(.running, .draining), (.draining, .stopped)]
      { (drain w.draining).state with phase := .stopped } :=
    (Course.goDown w hphase).trans (.of_lapse hlapse (.single .finish) (by simp) (by simp))
  rcases shutdown_cases hbusy with ⟨-, -, hstate, hevents⟩ | ⟨-, -, hstate, hevents⟩
  · refine ⟨?_, ?_, ?_⟩
    · rw [hevents, hphase, transitions_transition, transitions_cons rfl, transitions_append, hquiet]
      rfl
    · rw [hstate]
      exact hplan
    · rw [hstate]
      exact hstopped
  · refine ⟨?_, ?_, ?_⟩
    · rw [hevents, hphase, transitions_transition, transitions_cons rfl, transitions_append, hquiet]
      rfl
    · rw [hstate]
      exact hplan
    · rw [hstate]
      exact hstopped.trans (.detach _)

/-- A whole run goes through a start, and through a shutdown if the start succeeds. -/
theorem takes_runToEnd (hplain : w.plan.transport.Plain) (hphase : w.phase.Settled) :
    ∃ moves, Takes c w moves (runToEnd w) ∧ (runToEnd w).state.phase = .stopped := by
  rcases takes_start hplain hphase with ⟨⟨e, herror⟩, hstart⟩ | ⟨hok, hstart⟩
  · -- The start has failed, and nothing is left to shut down.
    have hrun : Takes c w [(w.phase, .starting), (.starting, .stopped)] (runToEnd w) := by
      rw [runToEnd_eq]
      refine hstart.bind_rest ?_
      rw [herror]
      exact ⟨rfl, rfl, .giveUp _⟩
    exact ⟨_, hrun, hrun.course.path.eq_of_last [_]⟩
  · -- The wait leaves the device running, so that the shutdown drains it.
    have hrunning : (start w).state.phase = .running := hstart.course.path.eq_of_last [_]
    have hwait : Takes c (start w).state [] (awaitToken (start w).state) :=
      .of_rest (hstart.plain hplain) (lapses_awaitToken _)
    have hshutdown : Takes c _ _ (shutdown _) :=
      takes_shutdown_of_running (hwait.plain (hstart.plain hplain))
        ((lapses_awaitToken (start w).state).phase_eq.trans hrunning)
    have hrun : Takes c w [(w.phase, .starting), (.starting, .running), (.running, .draining),
        (.draining, .stopped)] (runToEnd w) := by
      rw [runToEnd_eq]
      refine hstart.bind (?_ : Takes _ _ [(.running, .draining), (.draining, .stopped)] _)
      rw [hok]
      refine hwait.bind (Takes.bind_rest hshutdown ?_)
      exact ⟨rfl, rfl, .giveUp _⟩
    exact ⟨_, hrun, hrun.course.path.eq_of_last [_, _, _]⟩

/-! ## Steps -/

/-- Whether the latest start or shutdown was a start that answered well, after a step that gave an
answer, if it was or was not before. -/
def upAfter (up : Bool) : SupervisorStep → StepAnswer → Bool
  | .start, .supervisor (.ok ()) => true
  | .start, _ | .shutdown, _ | .run, _ => false
  | _, _ => up

/-- A device is left between two operations, and runs if and only if it is up. -/
structure Rests (w : World) (up : Bool) : Prop where
  settled : w.phase.Settled
  running_iff : w.phase = .running ↔ up = true

theorem Rests.of_stopped (hphase : w.phase = .stopped) : Rests w false := by
  refine ⟨Or.inr (Or.inr hphase), ?_⟩
  rw [hphase]
  decide

theorem Rests.of_running (hphase : w.phase = .running) : Rests w true := by
  refine ⟨Or.inr (Or.inl hphase), ?_⟩
  rw [hphase]
  decide

theorem Rests.of_lapse {up : Bool} {events : List Event} {w' : World} (hrests : Rests w up)
    (h : w.LapsesTo events w') : Rests w' up := by
  refine ⟨?_, ?_⟩
  · rw [h.phase_eq]
    exact hrests.settled
  · rw [h.phase_eq]
    exact hrests.running_iff

/-- Every step takes the device along a path, and leaves it at rest. -/
theorem takes_step {up : Bool} {s : SupervisorStep} (hplain : w.plan.transport.Plain)
    (hrests : Rests w up) (hcancelled : s = .cancel → c) :
    (∃ moves, Takes c w moves (step s w)) ∧
      Rests (step s w).state (upAfter up s (step s w).answer) := by
  cases s with
  | cancel =>
    exact ⟨⟨[], rfl, rfl, .cancel (hcancelled rfl) w⟩, hrests.settled, hrests.running_iff⟩
  | start =>
    rcases takes_start (c := c) hplain hrests.settled with ⟨⟨e, herror⟩, htakes⟩ | ⟨hok, htakes⟩
    · have hanswer : (step .start w).answer = .supervisor (.error e) :=
        congrArg StepAnswer.supervisor herror
      refine ⟨⟨_, htakes.bind_rest (.pure _ _)⟩, ?_⟩
      rw [hanswer]
      exact .of_stopped (htakes.course.path.eq_of_last [_])
    · have hanswer : (step .start w).answer = .supervisor (.ok ()) :=
        congrArg StepAnswer.supervisor hok
      refine ⟨⟨_, htakes.bind_rest (.pure _ _)⟩, ?_⟩
      rw [hanswer]
      exact .of_running (htakes.course.path.eq_of_last [_])
  | shutdown =>
    by_cases hrunning : w.phase = .running
    · have htakes : Takes c w _ (shutdown w) := takes_shutdown_of_running hplain hrunning
      exact ⟨⟨_, htakes.bind_rest (.pure _ _)⟩, .of_stopped (htakes.course.path.eq_of_last [_])⟩
    · have hresting : w.phase = .idle ∨ w.phase = .stopped :=
        hrests.settled.imp_right fun h => h.resolve_left hrunning
      have htakes : Takes c w _ (shutdown w) := takes_shutdown_of_resting hresting
      exact ⟨⟨_, htakes.bind_rest (.pure _ _)⟩, .of_stopped (htakes.course.path.eq_of_last [])⟩
  | run =>
    rcases takes_runToEnd (c := c) hplain hrests.settled with ⟨moves, htakes, hstopped⟩
    exact ⟨⟨moves, htakes.bind_rest (.pure _ _)⟩, .of_stopped hstopped⟩
  | wait =>
    have hlapse : Upholds LapsesTo (step .wait) w :=
      lapses_step (s := .wait) nofun nofun nofun nofun w
    exact ⟨⟨[], .of_rest hplain hlapse⟩, hrests.of_lapse hlapse⟩
  | sleep span =>
    have hlapse : Upholds LapsesTo (step (.sleep span)) w :=
      lapses_step (s := .sleep span) nofun nofun nofun nofun w
    exact ⟨⟨[], .of_rest hplain hlapse⟩, hrests.of_lapse hlapse⟩
  | device operations =>
    have hlapse : Upholds LapsesTo (step (.device operations)) w :=
      lapses_step (s := .device operations) nofun nofun nofun nofun w
    exact ⟨⟨[], .of_rest hplain hlapse⟩, hrests.of_lapse hlapse⟩

end World

/-! ## Scripts -/

/-- A world, and what was noted of the script that led to it: the moves that were reported, and
whether the latest start or shutdown was a start that answered well. -/
structure Chronicle where
  world : World
  moves : List (Lifecycle × Lifecycle) := []
  up : Bool := false

namespace Chronicle

/-- Carries out one step. -/
def step (seen : Chronicle) (e : Errand) : Chronicle :=
  let done := World.step e.step (seen.world.withTransport e.transport)
  { world := done.state
    moves := seen.moves ++ transitions done.events
    up := World.upAfter seen.up e.step done.answer }

/-- Carries out steps one after the other. -/
def run (seen : Chronicle) (errands : List Errand) : Chronicle :=
  errands.foldl step seen

/-- Follows a new device through a script. -/
def ofScript (plan : Plan) (device : Device) (cancelAt : Option Nat) (errands : List Errand) :
    Chronicle :=
  run { world := { plan, device, cancelAt } } errands

/-- What was noted agrees with a course from the world in which the script began. -/
structure Sound (cancelled : Prop) (origin : World) (seen : Chronicle) : Prop where
  course : World.Course cancelled origin seen.moves seen.world
  rests : World.Rests seen.world seen.up

variable {c : Prop} {origin : World} {seen : Chronicle}

theorem Sound.step {e : Errand} (h : seen.Sound c origin) (hplain : e.transport.Plain)
    (hcancelled : e.step = .cancel → c) : (seen.step e).Sound c origin := by
  -- That the transport behaves in another way is no move, and brings no loops.
  have hreached : World.Course c origin seen.moves (seen.world.withTransport e.transport) :=
    { h.course with }
  have hrests : World.Rests (seen.world.withTransport e.transport) seen.up :=
    ⟨h.rests.settled, h.rests.running_iff⟩
  rcases World.takes_step hplain hrests hcancelled with ⟨⟨moves, htakes⟩, hafter⟩
  refine ⟨?_, hafter⟩
  have hcourse := hreached.trans htakes.course
  rw [← htakes.reported] at hcourse
  exact hcourse

theorem Sound.run {errands : List Errand} (h : seen.Sound c origin)
    (hplain : ∀ e ∈ errands, e.transport.Plain)
    (hcancelled : ∀ e ∈ errands, e.step = .cancel → c) : (seen.run errands).Sound c origin := by
  induction errands generalizing seen with
  | nil => exact h
  | cons e errands ih =>
    have hfirst := h.step (hplain e List.mem_cons_self) (hcancelled e List.mem_cons_self)
    exact ih hfirst (fun e he => hplain e (List.mem_cons_of_mem _ he))
      fun e he => hcancelled e (List.mem_cons_of_mem _ he)

theorem sound_of_new (plan : Plan) (device : Device) (cancelAt : Option Nat) :
    Sound c { plan, device, cancelAt } { world := { plan, device, cancelAt } } :=
  ⟨.of_rest (Process.Cumulative.nil _), Or.inl rfl, nofun, nofun⟩

/-- The moves that were noted form one path from the beginning to the present, and all that a
supervisor does goes with them. -/
structure Coupled (plan : Plan) (cancelAt : Option Nat) (errands : List Errand)
    (seen : Chronicle) : Prop where
  path : Lifecycle.Path .idle seen.moves seen.world.phase
  settled : seen.world.phase.Settled
  running_iff : seen.world.phase = .running ↔ seen.up = true
  -- The transport is told to stop, and the token is fired by the supervisor, when it is drained.
  stopCalls_eq : seen.world.stopCalls = seen.moves.count (.running, .draining)
  fired : (.running, .draining) ∈ seen.moves → seen.world.fired = true
  firing : seen.world.fired = true → (.running, .draining) ∈ seen.moves ∨
    (∃ e ∈ errands, e.step = .cancel) ∨ ∃ instant ∈ cancelAt, instant ≤ seen.world.now
  -- Two loops are spawned when the device comes up, and none at any other time.
  living : seen.world.living.Sublist (plan.spawnedBy seen.moves)
  lasting_eq : seen.world.fired = false → seen.world.released = false →
    Loop.lasting seen.world.living = Loop.lasting (plan.spawnedBy seen.moves)
  spawning : ∀ t, (World.start (seen.world.withTransport t)).answer = .ok () →
    ∃ earlier, earlier.Sublist seen.world.living ∧
      (World.start (seen.world.withTransport t)).state.living = earlier ++ plan.spawns

end Chronicle

/-- However a script goes, and however the transport behaves at each of its steps, its moves are one
path through the lifecycle, between two steps the device rests in the state that the latest start
or shutdown has left, and stops, cancellations and loops go with the moves. -/
theorem transitions_coupled (plan : Plan) (device : Device) (cancelAt : Option Nat)
    (errands : List Errand) (hplain : ∀ e ∈ errands, e.transport.Plain) :
    (Chronicle.ofScript plan device cancelAt errands).Coupled plan cancelAt errands := by
  have hsound := (Chronicle.sound_of_new plan device cancelAt).run hplain
    fun e he hcancel => (⟨e, he, hcancel⟩ : ∃ e ∈ errands, e.step = .cancel)
  have hcourse := hsound.course
  refine ⟨hcourse.path, hsound.rests.settled, hsound.rests.running_iff, ?_, ?_, ?_, hcourse.living,
    hcourse.lasting_eq, ?_⟩
  · exact hcourse.stopCalls_eq.trans (Nat.zero_add _)
  · exact fun hmove => hcourse.fired (Or.inr hmove)
  · exact fun hfired => (hcourse.firing hfired).resolve_left Bool.false_ne_true
  · intro t hok
    have hspawns : plan.spawns = (World.withTransport _ t).plan.spawns := hcourse.spawns_eq.symm
    rw [hspawns]
    exact World.living_start_of_ok hok

/-- A device that is started three times, the second time in vain, and then shut down. -/
theorem transitions_coupled_startedThrice :
    let errands : List Errand :=
      [⟨.start, {}⟩, ⟨.start, { failures := 2 }⟩, ⟨.start, {}⟩, ⟨.shutdown, {}⟩]
    (Chronicle.ofScript {} fourCellDevice none errands).Coupled {} none errands ∧
      (Chronicle.ofScript {} fourCellDevice none errands).moves =
        [(.idle, .starting), (.starting, .running), (.running, .starting), (.starting, .stopped),
          (.stopped, .starting), (.starting, .running), (.running, .draining),
          (.draining, .stopped)] := by
  refine ⟨transitions_coupled {} fourCellDevice none _ ?_, rfl⟩
  intro e he
  simp only [List.mem_cons, List.not_mem_nil, or_false] at he
  rcases he with rfl | rfl | rfl | rfl <;> exact ⟨rfl, rfl⟩

end Fieldbus
