import Fieldbus.Proofs.Journal.Process
import Fieldbus.Supervisor.World

/-!
# Passing time

What becomes of a world while its main task waits.  The tasks beside the main one work on the device
and on their own loops only; all that the main task and the clock decide is the control of a world,
and of it a wait changes the clock and the token alone.
-/

namespace Fieldbus

/-- All of a world but the device and the loops. -/
structure Control where
  plan : Plan
  now : Nat
  fired : Bool
  cancelAt : Option Nat
  phase : Lifecycle
  released : Bool
  starts : Nat
  stopCalls : Nat
  stops : Nat

namespace World

/-- The control of a world. -/
def control (w : World) : Control :=
  { plan := w.plan
    now := w.now
    fired := w.fired
    cancelAt := w.cancelAt
    phase := w.phase
    released := w.released
    starts := w.starts
    stopCalls := w.stopCalls
    stops := w.stops }

/-! ## Turns -/

theorem control_cancelTurn (w : World) :
    (cancelTurn w).state.control = if w.CancelDue then w.fire.control else w.control := by
  have hstate : (cancelTurn w).state = if w.CancelDue then w.fire else w := rfl
  rw [hstate]
  split <;> rfl

theorem control_beginTurn (w : World) : (beginTurn w).state.control = w.control := by
  rfl

theorem control_endTurn (w : World) : (endTurn w).state.control = w.control := by
  rfl

theorem control_tickTurn (w : World) : (tickTurn w).state.control = w.control := by
  rfl

/-- A turn of the tasks beside the main one fires the token if its cancellation is due. -/
theorem control_turn (w : World) :
    (turn w).state.control = if w.CancelDue then w.fire.control else w.control := by
  -- What the loops do, once they have begun, depends on the token, but the control does not move.
  let begun : World := (beginTurn (cancelTurn w).state).state
  have hstate : (turn w).state =
      ((if begun.fired then endTurn else tickTurn : Process World Unit) begun).state := rfl
  have hbegun : begun.control = if w.CancelDue then w.fire.control else w.control := by
    rw [← control_cancelTurn]
    exact control_beginTurn _
  rw [hstate, ← hbegun]
  split
  · exact control_endTurn begun
  · exact control_tickTurn begun

theorem inBackground_startEvents (loops : List Loop) :
    ∀ e ∈ startEvents loops, e.InBackground := by
  intro e he
  rcases List.mem_flatMap.mp he with ⟨l, -, hl⟩
  split at hl
  · cases hl
  · cases htask : l.task with
    | counter =>
      rw [htask] at hl
      rw [List.mem_singleton.mp hl]
      trivial
    | health =>
      rw [htask] at hl
      cases hl

theorem inBackground_beginTurn (w : World) : ∀ e ∈ (beginTurn w).events, e.InBackground := by
  intro e he
  exact (List.mem_append.mp he).elim (inBackground_startEvents _ e) (inBackground_startEvents _ e)

theorem inBackground_endTurn (w : World) : ∀ e ∈ (endTurn w).events, e.InBackground := by
  intro e he
  rcases List.mem_map.mp he with ⟨l, -, rfl⟩
  cases l.task <;> trivial

/-! ## Ticks -/

/-- Ticks before an instant move nothing but the clock. -/
theorem control_elapse (limit : Nat) (w : World) (past : List Event) :
    { (elapse limit w past).1.control with now := limit } = { w.control with now := limit } := by
  -- By recursion on the ticks before the limit: each sets the clock and nothing else.
  fun_induction elapse limit w past with
  | case1 w past hnone => rfl
  | case2 w past instant hsome ticked ih => exact ih

theorem control_passUntil (limit : Nat) (w : World) :
    (passUntil limit w).state.control = { w.control with now := limit } := by
  exact control_elapse limit w []

theorem elapse_of_none {limit : Nat} {w : World} (hnone : Loop.firstTick? limit w.loops = none)
    (past : List Event) : elapse limit w past = (w, past) := by
  rw [elapse]
  split
  · rfl
  · rename_i hsome
    cases hnone.symm.trans hsome

theorem passUntil_of_none {limit : Nat} {w : World}
    (hnone : Loop.firstTick? limit w.loops = none) :
    passUntil limit w = { answer := (), state := { w with now := limit } } := by
  unfold passUntil
  rw [elapse_of_none hnone]
  rfl

/-- Without loops, nothing happens but that time passes. -/
theorem passUntil_of_no_loops {w : World} (hloops : w.loops = []) (limit : Nat) :
    passUntil limit w = { answer := (), state := { w with now := limit } } := by
  refine passUntil_of_none ?_
  rw [hloops]
  rfl

/-! ## Waits of the main task -/

/-- The token has not been fired, and nobody is going to fire it before an instant. -/
structure QuietUntil (w : World) (limit : Nat) : Prop where
  notFired : w.fired = false
  later : ∀ c ∈ w.cancelAt, limit ≤ c

/-- The token has not been fired, and it will be at an instant that is not past. -/
structure CutAt (w : World) (c : Nat) : Prop where
  notFired : w.fired = false
  cancelAt_eq : w.cancelAt = some c
  ahead : w.now ≤ c

variable {w w' : World} {limit c : Nat}

theorem QuietUntil.mono {limit' : Nat} (h : w.QuietUntil limit) (hle : limit' ≤ limit) :
    w.QuietUntil limit' where
  notFired := h.notFired
  later := fun c hc => Nat.le_trans hle (h.later c hc)

theorem QuietUntil.of_eq (h : w.QuietUntil limit) (hfired : w'.fired = w.fired)
    (hcancelAt : w'.cancelAt = w.cancelAt) : w'.QuietUntil limit where
  notFired := hfired.trans h.notFired
  later := fun c hc => h.later c (hcancelAt ▸ hc)

theorem QuietUntil.not_cancelDue (h : w.QuietUntil limit) (hnow : w.now < limit) :
    ¬ w.CancelDue := by
  rintro ⟨c, hc, hle⟩
  exact Nat.not_le.mpr (Nat.lt_of_lt_of_le hnow (h.later c hc)) hle

theorem CutAt.quietUntil (h : w.CutAt c) (hle : limit ≤ c) : w.QuietUntil limit where
  notFired := h.notFired
  later := by
    intro instant hinstant
    rw [h.cancelAt_eq] at hinstant
    cases hinstant
    exact hle

theorem CutAt.of_eq (h : w.CutAt c) (hfired : w'.fired = w.fired)
    (hcancelAt : w'.cancelAt = w.cancelAt) (hnow : w'.now ≤ c) : w'.CutAt c where
  notFired := hfired.trans h.notFired
  cancelAt_eq := hcancelAt.trans h.cancelAt_eq
  ahead := hnow

theorem CutAt.now_eq (h : w.CutAt c) (hdue : w.CancelDue) : w.now = c := by
  rcases hdue with ⟨instant, hinstant, hle⟩
  rw [h.cancelAt_eq] at hinstant
  cases hinstant
  exact Nat.le_antisymm h.ahead hle

/-- A wait during which the token is not fired ends on time. -/
theorem sleepUnlessFired_of_quiet (h : w.QuietUntil limit) (hnow : w.now < limit) :
    (sleepUnlessFired limit w).answer = false ∧
      (sleepUnlessFired limit w).state.control = { w.control with now := limit } := by
  -- The turn at the beginning of the wait leaves the control as it is, and so does all the way.
  have hturn : (turn w).state.control = w.control := by
    rw [control_turn, if_neg (h.not_cancelDue hnow)]
  have hfired : (turn w).state.fired = false := (congrArg Control.fired hturn).trans h.notFired
  have hcancelAt : (turn w).state.cancelAt = w.cancelAt := congrArg Control.cancelAt hturn
  have hpass : (passUntil limit (turn w).state).state.control =
      { w.control with now := limit } := by
    rw [control_passUntil, hturn]
  unfold sleepUnlessFired
  simp only [Process.answer_bind, Process.state_bind, Process.answer_get, Process.state_get,
    hfired, hcancelAt, Bool.false_eq_true, if_false]
  cases hc : w.cancelAt with
  | none => exact ⟨rfl, hpass⟩
  | some c =>
    have hlater : ¬ c < limit := Nat.not_lt.mpr (h.later c hc)
    simp only [hlater, if_false]
    exact ⟨rfl, hpass⟩

/-- A wait during which the token is fired ends then. -/
theorem sleepUnlessFired_of_cut (h : w.CutAt c) (hlimit : c < limit) :
    (sleepUnlessFired limit w).answer = true ∧
      (sleepUnlessFired limit w).state.control =
        { w.control with now := c, fired := true, cancelAt := none } := by
  by_cases hdue : w.CancelDue
  · -- The cancellation is due already, and the turn at the beginning of the wait carries it out.
    have hturn : (turn w).state.control = w.fire.control := by
      rw [control_turn, if_pos hdue]
    have hfired : (turn w).state.fired = true := congrArg Control.fired hturn
    unfold sleepUnlessFired
    simp only [Process.answer_bind, Process.state_bind, Process.answer_get, Process.state_get,
      hfired, if_true]
    refine ⟨rfl, ?_⟩
    rw [Process.state_pure, hturn, ← h.now_eq hdue]
    rfl
  · -- Time passes to the cancellation first, and the turn after that carries it out.
    have hturn : (turn w).state.control = w.control := by
      rw [control_turn, if_neg hdue]
    have hfired : (turn w).state.fired = false := (congrArg Control.fired hturn).trans h.notFired
    have hcancelAt : (turn w).state.cancelAt = some c :=
      (congrArg Control.cancelAt hturn).trans h.cancelAt_eq
    have hpass : (passUntil c (turn w).state).state.control = { w.control with now := c } := by
      rw [control_passUntil, hturn]
    have hdue' : (passUntil c (turn w).state).state.CancelDue :=
      ⟨c, (congrArg Control.cancelAt hpass).trans h.cancelAt_eq,
        Nat.le_of_eq (congrArg Control.now hpass)⟩
    unfold sleepUnlessFired
    simp only [Process.answer_bind, Process.state_bind, Process.answer_get, Process.state_get,
      hfired, hcancelAt, hlimit, Bool.false_eq_true, if_false, if_true]
    refine ⟨rfl, ?_⟩
    rw [Process.state_pure, control_turn, if_pos hdue']
    exact congrArg (fun t => { t with fired := true, cancelAt := none }) hpass

end World

end Fieldbus
