import Fieldbus.Proofs.Supervisor.Schedule
import Fieldbus.Proofs.Supervisor.Waits

/-!
# Time instant by instant

Time passes by leaps from one tick to the next.  As long as no loop is late it could as well pass
instant by instant: at each the loops that are due tick, and then the clock moves on by one
(`World.passUntil_step`).  What ticks and a step of the clock keep, a stretch of time keeps.
-/

namespace Fieldbus

namespace World

open Process

variable {w : World} {limit instant : Nat}

/-- No loop is late. -/
def Punctual (w : World) : Prop :=
  ∀ l ∈ w.loops, 0 < l.period → w.now ≤ l.next

/-- No loop ticks at this instant any more. -/
def Ticked (w : World) : Prop :=
  ∀ l ∈ w.loops, 0 < l.period → w.now < l.next

/-- The clock moves on by one instant. -/
def tock : Process World Unit :=
  modify fun w => { w with now := w.now + 1 }

theorem Ticked.punctual (h : w.Ticked) : w.Punctual :=
  fun l hl hperiod => Nat.le_of_lt (h l hl hperiod)

theorem Ticked.tock (h : w.Ticked) : (World.tock w).state.Punctual :=
  h

theorem ticked_tickTurn (w : World) : (tickTurn w).state.Ticked := by
  intro l hl hperiod
  rcases List.mem_map.mp hl with ⟨old, -, rfl⟩
  by_cases hdue : old.IsDue w.now
  · rw [if_pos hdue] at hperiod ⊢
    exact Nat.lt_add_of_pos_right hperiod
  · rw [if_neg hdue] at hperiod ⊢
    exact Nat.not_le.mp fun hle => hdue ⟨hperiod, hle⟩

/-- Where no loop is due, ticking does nothing. -/
theorem tickTurn_of_ticked (h : w.Ticked) : tickTurn w = { answer := (), state := w } := by
  have hnone : ∀ l ∈ w.loops, ¬ l.IsDue w.now := fun l hl hdue =>
    Nat.not_lt.mpr hdue.2 (h l hl hdue.1)
  have hdue : Loop.due w.now w.loops = [] := by
    have hfilter : (w.loops.filter fun l => l.IsDue w.now) = [] :=
      List.filter_eq_nil_iff.mpr fun l hl => by simpa using hnone l hl
    rw [Loop.due, hfilter, List.mergeSort_nil]
  have hloops : Loop.advance w.now w.loops = w.loops :=
    (List.map_congr_left fun l hl => if_neg (hnone l hl)).trans (List.map_id' _)
  unfold tickTurn
  rw [hdue, hloops]
  rfl

/-! ## Leaps -/

theorem elapse_of_some (hsome : Loop.firstTick? limit w.loops = some instant)
    (past : List Event) :
    elapse limit w past =
      elapse limit (tickTurn { w with now := instant }).state
        ((tickTurn { w with now := instant }).events.reverse ++ past) := by
  rw [elapse]
  split
  · rename_i hnone
    cases hnone.symm.trans hsome
  · rename_i instant' hsome'
    cases hsome.symm.trans hsome'
    rfl

/-- The events so far do not matter to what follows. -/
theorem elapse_append (limit : Nat) (w : World) (past earlier : List Event) :
    elapse limit w (past ++ earlier) =
      ((elapse limit w past).1, (elapse limit w past).2 ++ earlier) := by
  fun_induction elapse limit w past with
  | case1 w past hnone => exact elapse_of_none hnone _
  | case2 w past instant hsome ticked ih =>
    rw [elapse_of_some hsome, ← List.append_assoc]
    exact ih

/-- Time leaps to the first tick and passes on from there. -/
theorem passUntil_of_some (hsome : Loop.firstTick? limit w.loops = some instant) :
    passUntil limit w = (tickTurn >>= fun _ => passUntil limit) { w with now := instant } := by
  have hrest := elapse_append limit (tickTurn { w with now := instant }).state []
    (tickTurn { w with now := instant }).events.reverse
  rw [List.nil_append] at hrest
  unfold passUntil
  rw [elapse_of_some hsome, List.append_nil, hrest]
  simp only [List.reverse_append, List.reverse_reverse]
  rfl

/-- Time passes from wherever the clock stands. -/
theorem passUntil_clock (limit instant : Nat) (w : World) :
    passUntil limit { w with now := instant } = passUntil limit w := by
  cases hfirst : Loop.firstTick? limit w.loops with
  | none =>
    have hleft := passUntil_of_none (w := { w with now := instant }) hfirst
    exact hleft.trans (passUntil_of_none hfirst).symm
  | some first =>
    have hleft := passUntil_of_some (w := { w with now := instant }) hfirst
    exact hleft.trans (passUntil_of_some hfirst).symm

/-! ## Instants -/

/-- If no loop is late, time passes by the loops that are due now and then the instant after. -/
theorem passUntil_step (hpunctual : w.Punctual) (hlimit : w.now < limit) :
    passUntil limit w = (do tickTurn; tock; passUntil limit : Process World Unit) w := by
  -- After the ticks it does not matter that the clock moves on.
  have hstep : (do tickTurn; tock; passUntil limit : Process World Unit) w =
      (tickTurn >>= fun _ => passUntil limit) w := by
    have hrest := passUntil_clock limit ((tickTurn w).state.now + 1) (tickTurn w).state
    exact congrArg (fun rest => (tickTurn w).andThen fun _ _ => rest) hrest
  have hquiet (hticked : w.Ticked) : passUntil limit w =
      (tickTurn >>= fun _ => passUntil limit) w := by
    have hnothing := tickTurn_of_ticked hticked
    have hrest : (tickTurn >>= fun _ => passUntil limit) w =
        (tickTurn w).andThen fun _ => passUntil limit := rfl
    rw [hrest, hnothing]
    rfl
  rw [hstep]
  cases hfirst : Loop.firstTick? limit w.loops with
  | none =>
    refine hquiet fun l hl hperiod => ?_
    exact Nat.lt_of_lt_of_le hlimit (Loop.firstTick?_eq_none hfirst hl hperiod)
  | some first =>
    rcases Loop.firstTick?_eq_some hfirst with ⟨⟨l, hl, hperiod, rfl⟩, -, hbefore⟩
    rcases Nat.eq_or_lt_of_le (hpunctual l hl hperiod) with hnow | hlater
    · rw [passUntil_of_some hfirst, ← hnow]
    · exact hquiet fun m hm hperiod' => Nat.lt_of_lt_of_le hlater (hbefore m hm hperiod')

/-- No time passes up to an instant that does not lie ahead. -/
theorem passUntil_of_le (hpunctual : w.Punctual) (hlimit : limit ≤ w.now) :
    passUntil limit w = { answer := (), state := { w with now := limit } } := by
  cases hfirst : Loop.firstTick? limit w.loops with
  | none => exact passUntil_of_none hfirst
  | some first =>
    rcases Loop.firstTick?_eq_some hfirst with ⟨⟨l, hl, hperiod, rfl⟩, hlt, -⟩
    have hnow := hpunctual l hl hperiod
    omega

/-- What the ticks of an instant uphold, and a step of the clock after them, passing time upholds. -/
theorem upholds_passUntil {R : World → List Event → World → Prop} [Cumulative R]
    (htick : ∀ w : World, w.Punctual → (w.fired = true → w.loops = []) → Upholds R tickTurn w)
    (htock : ∀ w : World, w.Ticked → w.now < limit → (∀ c ∈ w.cancelAt, limit ≤ c) →
      (w.fired = true → w.loops = []) → Upholds R tock w)
    (hpunctual : w.Punctual) (hpass : w.MayPass limit) : Upholds R (passUntil limit) w := by
  -- By induction on the instants that are left.
  induction hleft : limit - w.now generalizing w with
  | zero =>
    have hnow : w.now = limit := Nat.le_antisymm hpass.ahead (Nat.le_of_sub_eq_zero hleft)
    have hrest := passUntil_of_le hpunctual (Nat.le_of_eq hnow.symm)
    have hsame : { w with now := limit } = w := by rw [← hnow]
    rw [Upholds, hrest, hsame]
    exact Cumulative.nil w
  | succ left ih =>
    have hlimit : w.now < limit := by omega
    rw [Upholds, passUntil_step hpunctual hlimit]
    have hended : (tickTurn w).state.fired = true → (tickTurn w).state.loops = [] := by
      intro hfired
      have hloops := hpass.ended hfired
      show Loop.advance w.now w.loops = []
      rw [hloops]
      rfl
    refine Upholds.bind (htick w hpunctual hpass.ended) (Upholds.bind
      (htock _ (ticked_tickTurn w) hlimit hpass.undisturbed hended) ?_)
    refine ih (ticked_tickTurn w).tock ⟨hlimit, hpass.undisturbed, hended⟩ ?_
    have hclock : (tock (tickTurn w).state).state.now = w.now + 1 := rfl
    rw [hclock]
    omega

end World

end Fieldbus
