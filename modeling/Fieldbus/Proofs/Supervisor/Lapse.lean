import Fieldbus.Proofs.Device.Updates
import Fieldbus.Proofs.Supervisor.Start
import Fieldbus.Proofs.Supervisor.Waits
import Fieldbus.Supervisor.Script

/-!
# Lapse of time

What waits, turns, attempts to start the transport, a drain, and runs on the device cannot do
(`World.LapsesTo`): they do not move the lifecycle, call for a stop or spawn loops, and they do not
take the token back, which is fired at the instant that was arranged or not at all.
-/

namespace Fieldbus

/-! ## Transitions in the journal -/

/-- The move between lifecycle states that the event reports. -/
def Event.transition? : Event → Option (Lifecycle × Lifecycle)
  | .transition source target => some (source, target)
  | _ => none

/-- The moves between lifecycle states that events report, in order. -/
def transitions (events : List Event) : List (Lifecycle × Lifecycle) :=
  events.filterMap (·.transition?)

@[simp] theorem transitions_transition (source target : Lifecycle) (events : List Event) :
    transitions (.transition source target :: events) = (source, target) :: transitions events :=
  rfl

theorem transitions_cons {e : Event} (he : e.transition? = none) (events : List Event) :
    transitions (e :: events) = transitions events :=
  List.filterMap_cons_none he

@[simp] theorem transitions_append (before after : List Event) :
    transitions (before ++ after) = transitions before ++ transitions after :=
  List.filterMap_append

theorem transitions_eq_nil {events : List Event} (h : ∀ e ∈ events, e.transition? = none) :
    transitions events = [] :=
  List.filterMap_eq_nil_iff.mpr h

theorem Event.transition?_of_isDevice {e : Event} (h : e.isDevice = true) :
    e.transition? = none := by
  cases e with
  | transition source target => cases h
  | _ => rfl

theorem Event.transition?_of_inBackground {e : Event} (h : e.InBackground) :
    e.transition? = none := by
  cases e with
  | transition source target => exact False.elim h
  | _ => rfl

theorem Event.transition?_of_ofAttempt {e : Event} (h : e.OfAttempt) : e.transition? = none := by
  cases e with
  | transition source target => exact False.elim h
  | _ => rfl

/-- The transport does not report moves of the lifecycle. -/
structure TransportPlan.Plain (t : TransportPlan) : Prop where
  up : transitions t.upEvents = []
  down : transitions t.downEvents = []

/-! ## The control of a world -/

/-- What time can do to the control of a world: complete stops, move the clock on, and fire the
token if that was arranged. -/
structure Control.LapsesTo (c c' : Control) : Prop where
  plan_eq : c'.plan = c.plan
  phase_eq : c'.phase = c.phase
  released_eq : c'.released = c.released
  stopCalls_eq : c'.stopCalls = c.stopCalls
  stops_le : c.stops ≤ c'.stops
  now_le : c.now ≤ c'.now
  cancelAt : ∀ instant ∈ c'.cancelAt, instant ∈ c.cancelAt
  fired : c.fired = true → c'.fired = true
  firing : c'.fired = true → c.fired = true ∨ ∃ instant ∈ c.cancelAt, instant ≤ c'.now

namespace Control.LapsesTo

theorem refl (c : Control) : c.LapsesTo c :=
  ⟨rfl, rfl, rfl, rfl, Nat.le_refl _, Nat.le_refl _, fun _ => id, id, Or.inl⟩

theorem trans {c c' c'' : Control} (h : c.LapsesTo c') (h' : c'.LapsesTo c'') : c.LapsesTo c'' where
  plan_eq := h'.plan_eq.trans h.plan_eq
  phase_eq := h'.phase_eq.trans h.phase_eq
  released_eq := h'.released_eq.trans h.released_eq
  stopCalls_eq := h'.stopCalls_eq.trans h.stopCalls_eq
  stops_le := Nat.le_trans h.stops_le h'.stops_le
  now_le := Nat.le_trans h.now_le h'.now_le
  cancelAt := fun instant hinstant => h.cancelAt instant (h'.cancelAt instant hinstant)
  fired := h'.fired ∘ h.fired
  firing := by
    intro hfired
    -- What was arranged half way was arranged before, and what was past by then is past.
    rcases h'.firing hfired with hbefore | ⟨instant, hinstant, hle⟩
    · rcases h.firing hbefore with hbefore | ⟨instant, hinstant, hle⟩
      · exact Or.inl hbefore
      · exact Or.inr ⟨instant, hinstant, Nat.le_trans hle h'.now_le⟩
    · exact Or.inr ⟨instant, h.cancelAt instant hinstant, hle⟩

/-- The clock moves on. -/
theorem clock {c : Control} {instant : Nat} (h : c.now ≤ instant) :
    c.LapsesTo { c with now := instant } :=
  ⟨rfl, rfl, rfl, rfl, Nat.le_refl _, h, fun _ => id, id, Or.inl⟩

/-- The token is fired when that is due. -/
theorem fire {w : World} (h : w.CancelDue) : w.control.LapsesTo w.fire.control :=
  ⟨rfl, rfl, rfl, rfl, Nat.le_refl _, Nat.le_refl _, nofun, fun _ => rfl, fun _ => Or.inr h⟩

end Control.LapsesTo

/-! ## The loops of a world -/

namespace Loop

/-- What a loop does and how often, whatever turns it has taken. -/
def kind (l : Loop) : Task × Nat :=
  (l.task, l.period)

/-- The kinds that are not dropped when they take their first turn. -/
def lasting (kinds : List (Task × Nat)) : List (Task × Nat) :=
  kinds.filter fun kind => kind.2 ≠ 0

theorem lasting_append (before after : List (Task × Nat)) :
    lasting (before ++ after) = lasting before ++ lasting after :=
  List.filter_append before after

/-- What time can do to loops: those that have no period are dropped, and all end once the token has
fired; none is added. -/
structure DwindleTo (fired : Bool) (loops loops' : List Loop) : Prop where
  sublist : (loops'.map kind).Sublist (loops.map kind)
  lasting_eq : fired = false → lasting (loops'.map kind) = lasting (loops.map kind)

namespace DwindleTo

variable {fired fired' : Bool} {loops loops' loops'' : List Loop}

theorem of_eq (h : loops'.map kind = loops.map kind) : DwindleTo fired loops loops' where
  sublist := h ▸ List.Sublist.refl _
  lasting_eq := fun _ => congrArg lasting h

theorem trans (h : DwindleTo fired loops loops') (h' : DwindleTo fired' loops' loops'')
    (hfired : fired = true → fired' = true) : DwindleTo fired' loops loops'' where
  sublist := h'.sublist.trans h.sublist
  lasting_eq := by
    intro hquiet
    have hbefore : fired = false :=
      Bool.eq_false_iff.mpr fun hf => Bool.eq_false_iff.mp hquiet (hfired hf)
    exact (h'.lasting_eq hquiet).trans (h.lasting_eq hbefore)

theorem ended : DwindleTo true loops [] :=
  ⟨List.nil_sublist _, nofun⟩

theorem eq_nil (h : DwindleTo fired loops loops') (hloops : loops = []) : loops' = [] := by
  have hsublist := h.sublist
  rw [hloops] at hsublist
  exact List.map_eq_nil_iff.mp (List.sublist_nil.mp hsublist)

end DwindleTo

/-- Loops that tick stay what they are. -/
theorem map_kind_advance (now : Nat) (loops : List Loop) :
    (advance now loops).map kind = loops.map kind := by
  rw [advance, List.map_map]
  refine List.map_congr_left ?_
  intro l _
  rw [Function.comp_apply]
  split <;> rfl

/-- Loops that take their first turn are dropped if they have no period. -/
theorem dwindleTo_begin (fired : Bool) (loops : List Loop) :
    DwindleTo fired loops
      ((loops.filter fun l => l.period ≠ 0).map fun l => { l with begun := true }) := by
  have hkinds :
      ((loops.filter fun l => l.period ≠ 0).map fun l => { l with begun := true }).map kind =
        lasting (loops.map kind) := by
    rw [lasting, List.filter_map, List.map_map]
    rfl
  refine ⟨?_, fun _ => ?_⟩
  · rw [hkinds]
    exact List.filter_sublist
  · rw [hkinds, lasting, lasting, List.filter_filter]
    simp only [Bool.and_self]

theorem transition?_tickAll (loops : List Loop) (d : Device) :
    ∀ e ∈ (tickAll loops d).events, e.transition? = none := by
  induction loops generalizing d with
  | nil => exact fun e he => nomatch he
  | cons l loops ih =>
    intro e he
    rcases List.mem_append.mp he with he | he
    · cases htask : l.task with
      | counter =>
        rw [htask] at he
        exact Event.transition?_of_isDevice (d.isDevice_increment e he)
      | health =>
        rw [htask] at he
        rw [List.mem_singleton.mp he]
        rfl
    · exact ih _ e he

end Loop

/-! ## Worlds -/

namespace World

/-- What passes between a world and a later one while the main task does not act. -/
structure LapsesTo (w : World) (events : List Event) (w' : World) : Prop where
  control : w.control.LapsesTo w'.control
  loops : Loop.DwindleTo w'.fired w.loops w'.loops
  detached : Loop.DwindleTo w'.fired w.detached w'.detached
  silent : w.plan.transport.Plain → transitions events = []

open Process

instance : Cumulative LapsesTo where
  nil w := ⟨.refl _, .of_eq rfl, .of_eq rfl, fun _ => rfl⟩
  append {w w' w'' before after} h h' := by
    refine ⟨h.control.trans h'.control, h.loops.trans h'.loops h'.control.fired,
      h.detached.trans h'.detached h'.control.fired, ?_⟩
    intro hplain
    have hplain' : w'.plan.transport.Plain := by
      have hplan : w'.plan = w.plan := h.control.plan_eq
      rw [hplan]
      exact hplain
    rw [transitions_append, h.silent hplain, h'.silent hplain', List.append_nil]

namespace LapsesTo

variable {w w' : World} {events : List Event}

/-- Neither the control nor the loops are touched. -/
theorem of_eq (hcontrol : w.control.LapsesTo w'.control) (hloops : w'.loops = w.loops)
    (hdetached : w'.detached = w.detached)
    (hsilent : w.plan.transport.Plain → transitions events = []) : w.LapsesTo events w' :=
  ⟨hcontrol, .of_eq (congrArg _ hloops), .of_eq (congrArg _ hdetached), hsilent⟩

theorem phase_eq (h : w.LapsesTo events w') : w'.phase = w.phase :=
  h.control.phase_eq

theorem fired (h : w.LapsesTo events w') : w.fired = true → w'.fired = true :=
  h.control.fired

end LapsesTo

/-! ## Turns -/

theorem lapses_cancelTurn (w : World) : Upholds LapsesTo cancelTurn w := by
  have hstate : (cancelTurn w).state = if w.CancelDue then w.fire else w := rfl
  have hcontrol : w.control.LapsesTo (cancelTurn w).state.control := by
    rw [hstate]
    split
    · rename_i hdue
      exact .fire hdue
    · exact .refl _
  refine .of_eq hcontrol ?_ ?_ fun _ => rfl
  all_goals
    rw [hstate]
    split <;> rfl

theorem lapses_beginTurn (w : World) : Upholds LapsesTo beginTurn w :=
  ⟨.refl _, Loop.dwindleTo_begin _ _, Loop.dwindleTo_begin _ _, fun _ =>
    transitions_eq_nil fun e he => Event.transition?_of_inBackground (inBackground_beginTurn w e he)⟩

/-- Loops end when the token has fired. -/
theorem lapses_endTurn {w : World} (hfired : w.fired = true) : Upholds LapsesTo endTurn w := by
  have hended (loops : List Loop) : Loop.DwindleTo w.fired loops [] := by
    rw [hfired]
    exact .ended
  exact ⟨.refl _, hended _, hended _, fun _ =>
    transitions_eq_nil fun e he => Event.transition?_of_inBackground (inBackground_endTurn w e he)⟩

theorem lapses_tickTurn (w : World) : Upholds LapsesTo tickTurn w :=
  ⟨.refl _, .of_eq (Loop.map_kind_advance _ _), .of_eq rfl,
    fun _ => transitions_eq_nil (Loop.transition?_tickAll _ _)⟩

theorem lapses_turn (w : World) : Upholds LapsesTo turn w := by
  refine (lapses_cancelTurn w).bind ((lapses_beginTurn _).bind (.get_bind ?_))
  split
  · rename_i hfired
    exact lapses_endTurn hfired
  · exact lapses_tickTurn _

/-! ## Time -/

/-- Ticks before an instant are no moves of the lifecycle, and loops that tick stay what they
are. -/
theorem loops_elapse (limit : Nat) (w : World) (past : List Event)
    (hpast : ∀ e ∈ past, e.transition? = none) :
    (elapse limit w past).1.loops.map Loop.kind = w.loops.map Loop.kind ∧
      (elapse limit w past).1.detached = w.detached ∧
      ∀ e ∈ (elapse limit w past).2, e.transition? = none := by
  -- By recursion on the ticks before the limit.
  fun_induction elapse limit w past with
  | case1 w past hnone => exact ⟨rfl, rfl, hpast⟩
  | case2 w past instant hsome ticked ih =>
    have hticked : ∀ e ∈ ticked.events.reverse ++ past, e.transition? = none := by
      intro e he
      rcases List.mem_append.mp he with he | he
      · exact Loop.transition?_tickAll _ _ e (List.mem_reverse.mp he)
      · exact hpast e he
    rcases ih hticked with ⟨hloops, hdetached, hevents⟩
    exact ⟨hloops.trans (Loop.map_kind_advance _ _), hdetached, hevents⟩

theorem lapses_passUntil {w : World} {limit : Nat} (hahead : w.now ≤ limit) :
    Upholds LapsesTo (passUntil limit) w := by
  rcases loops_elapse limit w [] nofun with ⟨hloops, hdetached, hevents⟩
  refine ⟨?_, .of_eq hloops, .of_eq (congrArg _ hdetached), fun _ => ?_⟩
  · rw [control_passUntil]
    exact .clock hahead
  · refine transitions_eq_nil ?_
    intro e he
    exact hevents e (List.mem_reverse.mp he)

/-! ## Waits and attempts -/

theorem lapses_awaitToken (w : World) : Upholds LapsesTo awaitToken w :=
  upholds_awaitToken lapses_turn (fun h => lapses_passUntil h.ahead) w

theorem lapses_attempts (retries attempt : Nat) (w : World) :
    Upholds LapsesTo (attempts attempt retries) w := by
  have hcalled (w : World) : w.LapsesTo [] w.called :=
    .of_eq ⟨rfl, rfl, rfl, rfl, Nat.le_refl _, Nat.le_refl _, fun _ => id, id, Or.inl⟩ rfl rfl
      fun _ => rfl
  have hreports (w : World) (events : List Event) (h : ∀ e ∈ events, e.OfAttempt) :
      w.LapsesTo events w :=
    .of_eq (.refl _) rfl rfl fun _ =>
      transitions_eq_nil fun e he => Event.transition?_of_ofAttempt (h e he)
  exact upholds_attempts lapses_turn (fun h => lapses_passUntil h.ahead) hcalled
    (fun _ => .of_eq (.refl _) rfl rfl (·.up)) hreports retries attempt w

theorem lapses_operate (operations : List Operation) (w : World) :
    Upholds LapsesTo (operate operations) w := by
  refine .of_eq (.refl _) rfl rfl fun _ => transitions_eq_nil ?_
  intro e he
  exact Event.transition?_of_isDevice (w.device.isDevice_run operations e he)

/-! ## Drains -/

theorem lapses_completeStop (w : World) : Upholds LapsesTo completeStop w := by
  have hcontrol : w.control.LapsesTo (completeStop w).state.control :=
    ⟨rfl, rfl, rfl, rfl, Nat.le_succ _, Nat.le_refl _, fun _ => id, id, Or.inl⟩
  exact .of_eq hcontrol rfl rfl fun hplain => hplain.down

theorem lapses_joinLoops (w : World) : Upholds LapsesTo joinLoops w := by
  refine .of_eq (.refl _) rfl rfl fun _ => transitions_eq_nil ?_
  intro e he
  rw [eq_taskFailed_of_joinLoops he]
  rfl

theorem lapses_drain (w : World) : Upholds LapsesTo drain w := by
  refine upholds_drain lapses_turn (fun limit hlimit => lapses_passUntil ?_)
    (fun w' _ => lapses_completeStop w') lapses_joinLoops
  rw [now_turn]
  exact hlimit

end World

end Fieldbus
