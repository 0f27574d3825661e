import Fieldbus.Proofs.Supervisor.Clock
import Fieldbus.Supervisor.Script
import Mathlib.Data.List.Forall2

/-!
# Worlds that differ in their health loops

Two worlds are twins if nothing tells them apart but the periods of their health loops.  Both live
through the same: at every instant the same counter loops tick in both, health loops tick in one or
the other and only report, and the main task never looks at what tells the twins apart.  So every
process answers alike in twins, reports alike but for the health checks, and leaves twins.
-/

namespace Fieldbus

/-- The event reports a health check. -/
def Event.isCheck : Event → Bool
  | .healthChecked .. => true
  | _ => false

theorem Event.isCheck_of_isDevice {e : Event} (h : e.isDevice = true) : e.isCheck = false := by
  cases e with
  | healthChecked => cases h
  | _ => rfl

theorem Event.isCheck_of_inBackground {e : Event} (h : e.InBackground) : e.isCheck = false := by
  cases e with
  | healthChecked => exact False.elim h
  | _ => rfl

/-- The events beside the health checks. -/
def besideChecks (events : List Event) : List Event :=
  events.filter fun e => !e.isCheck

theorem besideChecks_append (before after : List Event) :
    besideChecks (before ++ after) = besideChecks before ++ besideChecks after :=
  List.filter_append ..

theorem besideChecks_of_isDevice {events : List Event} (h : ∀ e ∈ events, e.isDevice = true) :
    besideChecks events = events :=
  List.filter_eq_self.mpr fun e he => by rw [Event.isCheck_of_isDevice (h e he)]; rfl

namespace Loop

/-- Loops that differ at most in when they check the health. -/
inductive Alike : Loop → Loop → Prop where
  | counter {l : Loop} (htask : l.task = .counter) : Alike l l
  | health {l m : Loop} (htask : l.task = .health) (htask' : m.task = .health)
      (hbegun : l.begun = m.begun) (hperiod : 0 < l.period) (hperiod' : 0 < m.period) : Alike l m

variable {l m : Loop} {loops loops' : List Loop} {now : Nat}

theorem Alike.task_eq (h : Alike l m) : l.task = m.task := by
  cases h with
  | counter => rfl
  | health htask htask' => exact htask.trans htask'.symm

theorem Alike.period_eq_zero_iff (h : Alike l m) : l.period = 0 ↔ m.period = 0 := by
  cases h with
  | counter => exact Iff.rfl
  | health _ _ _ hperiod hperiod' =>
    exact iff_of_false (Nat.ne_of_gt hperiod) (Nat.ne_of_gt hperiod')

theorem Alike.begin (h : Alike l m) : Alike { l with begun := true } { m with begun := true } := by
  cases h with
  | counter htask => exact .counter htask
  | health htask htask' _ hperiod hperiod' => exact .health htask htask' rfl hperiod hperiod'

theorem Alike.startEvents_eq (h : Alike l m) :
    World.startEvents [l] = World.startEvents [m] := by
  cases h with
  | counter => rfl
  | health htask htask' =>
    -- A health loop begins in silence.
    have hnone {l : Loop} (htask : l.task = .health) : World.startEvents [l] = [] := by
      simp only [World.startEvents, List.flatMap_cons, List.flatMap_nil, List.append_nil, htask]
      exact ite_self _
    rw [hnone htask, hnone htask']

theorem Alike.counting_iff (h : Alike l m) :
    (l.IsDue now ∧ l.task = .counter) ↔ (m.IsDue now ∧ m.task = .counter) := by
  cases h with
  | counter => exact Iff.rfl
  | health htask htask' =>
    rw [htask, htask']
    exact iff_of_false nofun nofun

theorem Alike.advance (h : Alike l m) :
    Alike (if l.IsDue now then l.ticked now else l) (if m.IsDue now then m.ticked now else m) := by
  cases h with
  | counter htask =>
    split
    · exact .counter htask
    · exact .counter htask
  | health htask htask' hbegun hperiod hperiod' =>
    have hsame {l : Loop} : (if l.IsDue now then l.ticked now else l).task = l.task ∧
        (if l.IsDue now then l.ticked now else l).begun = l.begun ∧
        (if l.IsDue now then l.ticked now else l).period = l.period := by
      split <;> exact ⟨rfl, rfl, rfl⟩
    refine .health (hsame.1.trans htask) (hsame.1.trans htask') ?_ ?_ ?_
    · exact hsame.2.1.trans (hbegun.trans hsame.2.1.symm)
    · rw [hsame.2.2]
      exact hperiod
    · rw [hsame.2.2]
      exact hperiod'

theorem alike_begin (h : List.Forall₂ Alike loops loops') :
    List.Forall₂ Alike
      ((loops.filter fun l => l.period ≠ 0).map fun l => { l with begun := true })
      ((loops'.filter fun l => l.period ≠ 0).map fun l => { l with begun := true }) := by
  induction h with
  | nil => exact .nil
  | @cons l m _ _ hfirst _ ih =>
    by_cases hperiod : l.period = 0
    · have hperiod' := hfirst.period_eq_zero_iff.mp hperiod
      rwa [List.filter_cons_of_neg (by simpa using hperiod),
        List.filter_cons_of_neg (by simpa using hperiod')]
    · have hperiod' := fun hzero => hperiod (hfirst.period_eq_zero_iff.mpr hzero)
      rw [List.filter_cons_of_pos (by simpa using hperiod),
        List.filter_cons_of_pos (by simpa using hperiod')]
      exact .cons hfirst.begin ih

theorem length_failed_of_alike (h : List.Forall₂ Alike loops loops') :
    (loops'.filter fun l => l.period = 0).length = (loops.filter fun l => l.period = 0).length := by
  rw [← List.countP_eq_length_filter, ← List.countP_eq_length_filter]
  induction h with
  | nil => rfl
  | cons hfirst _ ih =>
    rw [List.countP_cons, List.countP_cons, ih]
    simp only [hfirst.period_eq_zero_iff]

theorem startEvents_of_alike (h : List.Forall₂ Alike loops loops') :
    World.startEvents loops = World.startEvents loops' := by
  induction h with
  | nil => rfl
  | @cons l m later later' hfirst _ ih =>
    have hsplit (l : Loop) (loops : List Loop) :
        World.startEvents (l :: loops) = World.startEvents [l] ++ World.startEvents loops := by
      simp only [World.startEvents, List.flatMap_cons, List.flatMap_nil, List.append_nil]
    rw [hsplit l, hsplit m, hfirst.startEvents_eq, ih]

theorem stopEvents_of_alike (h : List.Forall₂ Alike loops loops') :
    (loops.map fun l => l.task.stopEvent) = loops'.map fun l => l.task.stopEvent := by
  induction h with
  | nil => rfl
  | cons hfirst _ ih => rw [List.map_cons, List.map_cons, hfirst.task_eq, ih]

theorem alike_advance (h : List.Forall₂ Alike loops loops') :
    List.Forall₂ Alike (advance now loops) (advance now loops') := by
  induction h with
  | nil => exact .nil
  | cons hfirst _ ih => exact .cons hfirst.advance ih

theorem countP_of_alike (h : List.Forall₂ Alike loops loops') :
    (loops.countP fun l => l.IsDue now ∧ l.task = .counter) =
      loops'.countP fun l => l.IsDue now ∧ l.task = .counter := by
  induction h with
  | nil => rfl
  | cons hfirst _ ih =>
    rw [List.countP_cons, List.countP_cons, ih]
    simp only [hfirst.counting_iff]

/-- Beside reporting checks, loops that tick do no more than the counter loops among them. -/
theorem tickAll_eq_run (loops : List Loop) (d : Device) :
    let ticks := List.replicate (loops.countP fun l => l.task = .counter) Operation.increment
    (tickAll loops d).state = (d.run ticks).state ∧
      besideChecks (tickAll loops d).events = (d.run ticks).events := by
  induction loops generalizing d with
  | nil => exact ⟨rfl, rfl⟩
  | cons l loops ih =>
    have hevents : (tickAll (l :: loops) d).events =
        (l.task.tick d).events ++ (tickAll loops (l.task.tick d).state).events := rfl
    have hstate : (tickAll (l :: loops) d).state =
        (tickAll loops (l.task.tick d).state).state := rfl
    dsimp only
    rw [hevents, hstate, besideChecks_append, List.countP_cons]
    cases htask : l.task with
    | counter =>
      rcases ih d.increment.state with ⟨hlast, hreported⟩
      have hfirst : besideChecks d.increment.events = d.increment.events :=
        besideChecks_of_isDevice d.isDevice_increment
      refine ⟨hlast, ?_⟩
      exact (congrArg (besideChecks _ ++ ·) hreported).trans (congrArg (· ++ _) hfirst)
    | health => exact ih d

end Loop

namespace World

open Process

variable {α β : Type} {w w' : World} {limit : Nat}

/-- Nothing tells the two worlds apart but the periods of their health loops, which tick in both. -/
structure Twins (w w' : World) : Prop where
  control_eq : w'.control =
    { w.control with plan := { w.plan with healthPeriod := w'.plan.healthPeriod } }
  ticks : 0 < w.plan.healthPeriod ∧ 0 < w'.plan.healthPeriod
  device_eq : w'.device = w.device
  loops : List.Forall₂ Loop.Alike w.loops w'.loops
  detached : List.Forall₂ Loop.Alike w.detached w'.detached
  failed : w'.failed.length = w.failed.length
  punctual : w.Punctual ∧ w'.Punctual

/-- In two worlds there are the same answers and the same events beside the health checks, and what
is left are twins. -/
structure Matches (o o' : Outcome World α) : Prop where
  answer_eq : o'.answer = o.answer
  events_eq : besideChecks o'.events = besideChecks o.events
  twins : Twins o.state o'.state

/-- The process does not tell twins apart. -/
def Mirrors (p : Process World α) : Prop :=
  ∀ w w', Twins w w' → Matches (p w) (p w')

namespace Twins

theorem plan_eq (h : Twins w w') :
    w'.plan = { w.plan with healthPeriod := w'.plan.healthPeriod } :=
  congrArg Control.plan h.control_eq

theorem now_eq (h : Twins w w') : w'.now = w.now :=
  congrArg Control.now h.control_eq

theorem fired_eq (h : Twins w w') : w'.fired = w.fired :=
  congrArg Control.fired h.control_eq

theorem cancelAt_eq (h : Twins w w') : w'.cancelAt = w.cancelAt :=
  congrArg Control.cancelAt h.control_eq

theorem phase_eq (h : Twins w w') : w'.phase = w.phase :=
  congrArg Control.phase h.control_eq

theorem cancelDue_iff (h : Twins w w') : w'.CancelDue ↔ w.CancelDue := by
  rw [CancelDue, CancelDue, h.cancelAt_eq, h.now_eq]

end Twins

/-! ## Processes put one after the other -/

theorem Matches.bind {p p' : Process World α} {f : α → Process World β}
    (hp : Matches (p w) (p' w')) (hf : ∀ a, Mirrors (f a)) :
    Matches ((p >>= f) w) ((p' >>= f) w') := by
  have hrest := hf (p w).answer _ _ hp.twins
  have hsame : (p' >>= f) w' = (p' w').andThen fun _ => f (p w).answer := by
    rw [← hp.answer_eq]
    rfl
  rw [hsame]
  refine ⟨hrest.answer_eq, ?_, hrest.twins⟩
  simp only [Outcome.andThen, events_bind, besideChecks_append, hp.events_eq, hrest.events_eq]

theorem Mirrors.bind {p : Process World α} {f : α → Process World β} (hp : Mirrors p)
    (hf : ∀ a, Mirrors (f a)) : Mirrors (p >>= f) :=
  fun w w' h => (hp w w' h).bind hf

/-- What goes on from the present world goes on from twins. -/
theorem Mirrors.get_bind {f : World → Process World β}
    (h : ∀ w w', Twins w w' → Matches (f w w) (f w' w')) :
    Mirrors (MonadState.get >>= f) :=
  h

theorem Mirrors.pure (a : α) : Mirrors (Pure.pure a : Process World α) :=
  fun _ _ h => ⟨rfl, rfl, h⟩

theorem mirrors_report (e : Event) : Mirrors (Process.report e) :=
  fun _ _ h => ⟨rfl, rfl, h⟩

theorem mirrors_reportAll (events : List Event) : Mirrors (Process.reportAll events) :=
  fun _ _ h => ⟨rfl, rfl, h⟩

theorem mirrors_modify {f : World → World} (hf : ∀ w w', Twins w w' → Twins (f w) (f w')) :
    Mirrors (modify f) :=
  fun w w' h => ⟨rfl, rfl, hf w w' h⟩

theorem mirrors_if {c : Prop} [Decidable c] {p q : Process World α} (hp : Mirrors p)
    (hq : Mirrors q) : Mirrors (if c then p else q) := by
  split
  · exact hp
  · exact hq

/-! ## Turns -/

theorem Twins.fire (h : Twins w w') : Twins w.fire w'.fire :=
  { h with control_eq :=
      congrArg (fun c => { c with fired := true, cancelAt := none }) h.control_eq }

theorem mirrors_cancelTurn : Mirrors cancelTurn := by
  refine mirrors_modify fun w w' h => ?_
  by_cases hdue : w.CancelDue
  · rw [if_pos hdue, if_pos (h.cancelDue_iff.mpr hdue)]
    exact h.fire
  · rw [if_neg hdue, if_neg fun hdue' => hdue (h.cancelDue_iff.mp hdue')]
    exact h

/-- That loops begin makes none of them late. -/
theorem Punctual.begin (h : w.Punctual) : (beginTurn w).state.Punctual := by
  intro l hl
  rcases List.mem_map.mp hl with ⟨old, hold, rfl⟩
  exact h old (List.mem_filter.mp hold).1

theorem mirrors_beginTurn : Mirrors beginTurn := by
  intro w w' h
  refine ⟨rfl, ?_, ?_⟩
  · have hevents : (beginTurn w').events = (beginTurn w).events := by
      simp only [beginTurn, Loop.startEvents_of_alike h.loops,
        Loop.startEvents_of_alike h.detached]
    rw [hevents]
  · exact
      { h with
        loops := Loop.alike_begin h.loops
        detached := Loop.alike_begin h.detached
        failed := by
          rw [beginTurn, beginTurn, List.length_append, List.length_append, h.failed,
            Loop.length_failed_of_alike h.loops]
        punctual := ⟨h.punctual.1.begin, h.punctual.2.begin⟩ }

theorem mirrors_endTurn : Mirrors endTurn := by
  intro w w' h
  refine ⟨rfl, ?_, { h with loops := .nil, detached := .nil, punctual := ⟨nofun, nofun⟩ }⟩
  have hevents : (endTurn w').events = (endTurn w).events := by
    simp only [endTurn, List.map_append, Loop.stopEvents_of_alike h.loops,
      Loop.stopEvents_of_alike h.detached]
  rw [hevents]

/-- At one instant the same counter loops tick in twins. -/
theorem mirrors_tickTurn : Mirrors tickTurn := by
  intro w w' h
  have hcount : ((Loop.due w'.now w'.loops).countP fun l => l.task = .counter) =
      (Loop.due w.now w.loops).countP fun l => l.task = .counter := by
    rw [Loop.countP_due, Loop.countP_due, h.now_eq]
    exact (Loop.countP_of_alike h.loops).symm
  have hticks := Loop.tickAll_eq_run (Loop.due w.now w.loops) w.device
  have hticks' := Loop.tickAll_eq_run (Loop.due w'.now w'.loops) w'.device
  rw [hcount, h.device_eq] at hticks'
  have hloops : List.Forall₂ Loop.Alike (Loop.advance w.now w.loops)
      (Loop.advance w'.now w'.loops) := by
    rw [h.now_eq]
    exact Loop.alike_advance h.loops
  refine ⟨rfl, ?_, ?_⟩
  · simp only [tickTurn]
    rw [h.device_eq]
    exact hticks'.2.trans hticks.2.symm
  · refine
      { h with
        device_eq := ?_
        loops := hloops
        punctual := ⟨(ticked_tickTurn w).punctual, (ticked_tickTurn w').punctual⟩ }
    simp only [tickTurn]
    rw [h.device_eq]
    exact hticks'.1.trans hticks.1.symm

theorem mirrors_turn : Mirrors turn := by
  refine mirrors_cancelTurn.bind fun _ => mirrors_beginTurn.bind fun _ => .get_bind ?_
  intro w w' h
  rw [h.fired_eq]
  exact mirrors_if mirrors_endTurn mirrors_tickTurn w w' h

/-! ## Time -/

theorem Twins.tock (h : Twins w w') (hticked : w.Ticked) (hticked' : w'.Ticked) :
    Twins (World.tock w).state (World.tock w').state :=
  { h with
    control_eq := congrArg (fun c => { c with now := c.now + 1 }) h.control_eq
    punctual := ⟨hticked.tock, hticked'.tock⟩ }

theorem Twins.clock (h : Twins w w') (hlimit : limit ≤ w.now) :
    Twins { w with now := limit } { w' with now := limit } :=
  { h with
    control_eq := congrArg (fun c => { c with now := limit }) h.control_eq
    punctual := ⟨fun l hl hperiod => Nat.le_trans hlimit (h.punctual.1 l hl hperiod),
      fun l hl hperiod =>
        Nat.le_trans (Nat.le_trans hlimit (Nat.le_of_eq h.now_eq.symm))
          (h.punctual.2 l hl hperiod)⟩ }

/-- Time passes in twins alike, instant by instant. -/
theorem mirrors_passUntil (limit : Nat) : Mirrors (passUntil limit) := by
  intro w w' h
  induction hleft : limit - w.now generalizing w w' with
  | zero =>
    have hlimit : limit ≤ w.now := Nat.le_of_sub_eq_zero hleft
    have hlimit' : limit ≤ w'.now := Nat.le_trans hlimit (Nat.le_of_eq h.now_eq.symm)
    rw [passUntil_of_le h.punctual.1 hlimit, passUntil_of_le h.punctual.2 hlimit']
    exact ⟨rfl, rfl, h.clock hlimit⟩
  | succ left ih =>
    have hlimit : w.now < limit := by omega
    have hlimit' : w'.now < limit := Nat.lt_of_le_of_lt (Nat.le_of_eq h.now_eq) hlimit
    rw [passUntil_step h.punctual.1 hlimit, passUntil_step h.punctual.2 hlimit']
    have hticks := mirrors_tickTurn w w' h
    have htock := hticks.twins.tock (ticked_tickTurn w) (ticked_tickTurn w')
    have hclock : (tock (tickTurn w).state).state.now = w.now + 1 := rfl
    have hrest := ih _ _ htock (by rw [hclock]; omega)
    refine ⟨hrest.answer_eq, ?_, hrest.twins⟩
    simp only [events_bind, besideChecks_append, hticks.events_eq]
    exact congrArg (besideChecks _ ++ ·) (congrArg (besideChecks _ ++ ·) hrest.events_eq)

theorem mirrors_sleepUntil (limit : Nat) : Mirrors (sleepUntil limit) := by
  refine mirrors_turn.bind fun _ => .get_bind fun w w' h => ?_
  rw [h.cancelAt_eq]
  cases w.cancelAt with
  | none => exact mirrors_passUntil limit w w' h
  | some c =>
    refine mirrors_if ?_ (mirrors_passUntil limit) w w' h
    exact (mirrors_passUntil c).bind fun _ => mirrors_turn.bind fun _ => mirrors_passUntil limit

theorem mirrors_sleepUnlessFired (limit : Nat) : Mirrors (sleepUnlessFired limit) := by
  refine mirrors_turn.bind fun _ => .get_bind fun w w' h => ?_
  rw [h.fired_eq]
  refine mirrors_if (.pure true) (.get_bind fun v v' h' => ?_) w w' h
  rw [h'.cancelAt_eq]
  have hpass : Mirrors (passUntil limit >>= fun _ => Pure.pure false) :=
    (mirrors_passUntil limit).bind fun _ => .pure false
  cases v.cancelAt with
  | none => exact hpass v v' h'
  | some c =>
    refine mirrors_if ?_ hpass v v' h'
    exact (mirrors_passUntil c).bind fun _ => mirrors_turn.bind fun _ => .pure true

theorem mirrors_awaitToken : Mirrors awaitToken := by
  refine .get_bind fun w w' h => ?_
  rw [h.fired_eq]
  refine mirrors_if (.pure ()) (mirrors_turn.bind fun _ => .get_bind fun v v' h' => ?_) w w' h
  rw [h'.fired_eq]
  refine mirrors_if (.pure ()) (.get_bind fun u u' h'' => ?_) v v' h'
  rw [h''.cancelAt_eq]
  cases u.cancelAt with
  | none => exact Mirrors.pure () u u' h''
  | some c => exact ((mirrors_passUntil c).bind fun _ => mirrors_turn) u u' h''

theorem mirrors_pause (span : Nat) : Mirrors (pause span) := by
  refine mirrors_if (.pure false) (.get_bind fun w w' h => ?_)
  rw [h.now_eq]
  exact mirrors_sleepUnlessFired _ w w' h

/-! ## Starts -/

theorem mirrors_moveTo (phase : Lifecycle) : Mirrors (moveTo phase) := by
  refine .get_bind fun w w' h => ?_
  rw [h.phase_eq]
  refine ((mirrors_report _).bind fun _ => mirrors_modify fun v v' h' => ?_) w w' h
  exact { h' with control_eq := congrArg (fun c => { c with phase := phase }) h'.control_eq }

theorem mirrors_announce (attempt : Nat) : Mirrors (announce attempt) := by
  refine .get_bind fun w w' h => ?_
  rw [h.plan_eq]
  exact mirrors_reportAll _ w w' h

theorem mirrors_callStart : Mirrors callStart := by
  refine (mirrors_modify fun v v' h => ?_).bind fun _ => .get_bind fun w w' h => ?_
  · exact
      { h with control_eq := congrArg (fun c => { c with starts := c.starts + 1 }) h.control_eq }
  · have hstarts : w'.starts = w.starts := congrArg Control.starts h.control_eq
    rw [h.plan_eq, hstarts]
    refine ((mirrors_pause _).bind fun cut => ?_) w w' h
    exact mirrors_if (.pure _) (mirrors_if (.pure _) ((mirrors_reportAll _).bind fun _ => .pure _))

theorem mirrors_attemptStart (attempt : Nat) : Mirrors (attemptStart attempt) :=
  (mirrors_announce attempt).bind fun _ => mirrors_callStart.bind fun _ =>
    (mirrors_reportAll _).bind fun _ => .pure _

theorem mirrors_attempts (retries : Nat) : ∀ attempt, Mirrors (attempts attempt retries) := by
  -- By induction on the attempts that are left, along how the first of them ends.
  induction retries with
  | zero =>
    intro attempt
    refine (mirrors_attemptStart attempt).bind fun ending => ?_
    cases ending with
    | up => exact .pure _
    | cancelled => exact .pure _
    | failed reason => exact .pure _
  | succ retries ih =>
    intro attempt
    refine (mirrors_attemptStart attempt).bind fun ending => ?_
    cases ending with
    | up => exact .pure _
    | cancelled => exact .pure _
    | failed reason =>
      refine .get_bind fun w w' h => ?_
      rw [h.plan_eq]
      refine ((mirrors_pause _).bind fun cut => ?_) w w' h
      exact mirrors_if (.pure _) (ih (attempt + 1))

/-- The loops that are spawned in twins differ in the period of the health loop only. -/
theorem Twins.spawnLoops (h : Twins w w') : Twins w.spawnLoops w'.spawnLoops := by
  have hcounter : w'.plan.counterPeriod = w.plan.counterPeriod := by rw [h.plan_eq]
  have hspawned {w : World} (hpunctual : w.Punctual) : w.spawnLoops.Punctual := by
    intro l hl hperiod
    rcases List.mem_append.mp hl with hold | hnew
    · exact hpunctual l hold hperiod
    · simp only [List.mem_cons, List.not_mem_nil, or_false] at hnew
      rcases hnew with rfl | rfl <;> exact Nat.le_add_right ..
  refine
    { h with
      loops := List.rel_append h.loops ?_
      punctual := ⟨hspawned h.punctual.1, hspawned h.punctual.2⟩ }
  rw [hcounter, h.now_eq]
  exact .cons (.counter rfl) (.cons (.health rfl rfl rfl h.ticks.1 h.ticks.2) .nil)

theorem mirrors_start : Mirrors start := by
  have hfailed (e : SupervisorError) : Mirrors (moveTo .stopped >>= fun _ =>
      Pure.pure (.error e : Except SupervisorError Unit)) :=
    (mirrors_moveTo _).bind fun _ => .pure _
  have hup : Mirrors (modify spawnLoops >>= fun _ => moveTo .running >>= fun _ =>
      Process.report .started >>= fun _ => Pure.pure (.ok () : Except SupervisorError Unit)) :=
    (mirrors_modify fun _ _ => Twins.spawnLoops).bind fun _ =>
      (mirrors_moveTo _).bind fun _ => (mirrors_report _).bind fun _ => .pure _
  refine (mirrors_moveTo _).bind fun _ => .get_bind fun w w' h => ?_
  rw [h.fired_eq, h.plan_eq]
  refine mirrors_if ((Mirrors.pure _).bind fun result => ?_)
    ((mirrors_attempts _ 1).bind fun result => ?_) w w' h
  all_goals
    cases result with
    | error e => exact hfailed e
    | ok _ => exact hup

/-! ## Shutdowns and whole runs -/

theorem mirrors_completeStop : Mirrors completeStop := by
  refine (mirrors_modify fun v v' h => ?_).bind fun _ => .get_bind fun w w' h => ?_
  · exact { h with control_eq := congrArg (fun c => { c with stops := c.stops + 1 }) h.control_eq }
  · rw [h.plan_eq]
    exact mirrors_reportAll _ w w' h

/-- Of twins as many loops have failed that nobody has waited for. -/
theorem mirrors_joinLoops : Mirrors joinLoops := by
  refine .get_bind fun w w' h => ?_
  rw [List.map_const', List.map_const', h.failed]
  refine ((mirrors_reportAll _).bind fun _ => mirrors_modify fun v v' h' => ?_) w w' h
  exact { h' with failed := rfl }

/-- Twins have loops to wait for or both have none. -/
theorem Twins.loops_eq_nil_iff (h : Twins w w') : w'.loops = [] ↔ w.loops = [] := by
  rw [← List.length_eq_zero_iff, ← List.length_eq_zero_iff, h.loops.length_eq]

theorem mirrors_drain : Mirrors drain := by
  refine .get_bind fun w w' h => ?_
  rw [h.plan_eq, h.now_eq]
  simp only [h.loops_eq_nil_iff]
  refine mirrors_if ?_ (mirrors_if (.pure _) ?_) w w' h
  · refine mirrors_completeStop.bind fun _ => mirrors_joinLoops.bind fun _ => ?_
    refine mirrors_if (.pure _) (mirrors_if (.pure _) ?_)
    exact mirrors_turn.bind fun _ => mirrors_joinLoops.bind fun _ => .pure _
  · refine mirrors_turn.bind fun _ => (mirrors_passUntil _).bind fun _ => mirrors_if ?_ (.pure _)
    exact mirrors_completeStop.bind fun _ => mirrors_joinLoops.bind fun _ => .pure _

theorem Twins.detachLoops (h : Twins w w') : Twins w.detachLoops w'.detachLoops :=
  { h with
    loops := .nil
    detached := List.rel_append h.detached h.loops
    failed := rfl
    punctual := ⟨nofun, nofun⟩ }

theorem mirrors_goDown : Mirrors goDown := by
  refine (mirrors_moveTo _).bind fun _ => (mirrors_report _).bind fun _ => ?_
  refine (mirrors_modify fun _ _ => Twins.fire).bind fun _ => mirrors_modify fun v v' h => ?_
  exact { h with
    control_eq := congrArg (fun c => { c with stopCalls := c.stopCalls + 1 }) h.control_eq }

theorem mirrors_shutdown : Mirrors shutdown := by
  refine .get_bind fun w w' h => ?_
  rw [h.phase_eq, h.plan_eq]
  refine mirrors_if ((mirrors_moveTo _).bind fun _ => .pure _) ?_ w w' h
  refine mirrors_goDown.bind fun _ => mirrors_drain.bind fun drained => ?_
  refine (mirrors_moveTo _).bind fun _ => mirrors_if ?_ ?_
  · exact (mirrors_report _).bind fun _ => .pure _
  · refine (mirrors_modify fun _ _ => Twins.detachLoops).bind fun _ => ?_
    exact (mirrors_report _).bind fun _ => .pure _

theorem mirrors_runToEnd : Mirrors runToEnd := by
  have hrelease : Mirrors (modify release : Process World Unit) := mirrors_modify fun v v' h =>
    { h with
      control_eq := congrArg (fun c => { c with released := true }) h.control_eq
      loops := .nil
      failed := rfl
      punctual := ⟨nofun, nofun⟩ }
  refine mirrors_start.bind fun result => ?_
  cases result with
  | error e => exact (Mirrors.pure _).bind fun _ => hrelease.bind fun _ => .pure _
  | ok _ =>
    refine mirrors_awaitToken.bind fun _ => mirrors_shutdown.bind fun _ => ?_
    exact hrelease.bind fun _ => .pure _

/-! ## Steps -/

theorem mirrors_operate (operations : List Operation) : Mirrors (operate operations) := by
  intro w w' h
  refine ⟨?_, ?_, { h with device_eq := ?_ }⟩
  all_goals
    simp only [operate, Process.within]
    rw [h.device_eq]

/-- No step of a script tells twins apart. -/
theorem mirrors_step (s : SupervisorStep) : Mirrors (step s) := by
  cases s with
  | start => exact mirrors_start.bind fun _ => .pure _
  | wait => exact mirrors_awaitToken.bind fun _ => .pure _
  | shutdown => exact mirrors_shutdown.bind fun _ => .pure _
  | run => exact mirrors_runToEnd.bind fun _ => .pure _
  | cancel => exact (mirrors_modify fun _ _ => Twins.fire).bind fun _ => .pure _
  | sleep span =>
    refine mirrors_if (.get_bind fun w w' h => ?_) (.pure _)
    rw [h.now_eq]
    exact ((mirrors_sleepUntil _).bind fun _ => Mirrors.pure _) w w' h
  | device operations => exact (mirrors_operate operations).bind fun _ => .pure _

/-- A new device with one period for its health loop or another. -/
theorem twins_of_new (plan : Plan) (device : Device) (cancelAt : Option Nat) {period period' : Nat}
    (hperiod : 0 < period) (hperiod' : 0 < period') :
    Twins { plan := { plan with healthPeriod := period }, device, cancelAt }
      { plan := { plan with healthPeriod := period' }, device, cancelAt } :=
  ⟨rfl, ⟨hperiod, hperiod'⟩, rfl, .nil, .nil, rfl, nofun, nofun⟩

end World

end Fieldbus
