import Fieldbus.Proofs.Supervisor.Schedule
import Fieldbus.Proofs.Supervisor.Shutdown

/-!
# The ledger of a supervisor

A ledger says how many updates of the live counter are expected before an instant: those that were
asked for explicitly, and one for each tick on the schedules of the starts that succeeded.  Until
the token fires, the updates that were made and those that the loops have yet to make balance with
the ledger, however the main task waits; once it has fired, the updates stay at what was expected
before that instant.
-/

namespace Fieldbus

/-- The transport does not report updates of the counter. -/
def TransportPlan.Discreet (t : TransportPlan) : Prop :=
  updates t.upEvents = 0 ∧ updates t.downEvents = 0

theorem TransportPlan.discreet_default : Discreet {} :=
  ⟨rfl, rfl⟩

/-- What updates of the counter are expected from: the plan, the settings of the device, the instant
at which the token is fired if there is one, the instants at which starts have succeeded, and the
number of updates that were asked for explicitly. -/
structure Ledger where
  plan : Plan
  settings : DeviceSettings
  cut : Option Nat
  started : List Nat
  explicit : Nat
  discreet : plan.transport.Discreet

namespace Ledger

open World

/-- How many updates are expected before an instant. -/
def expected (k : Ledger) (instant : Nat) : Nat :=
  k.explicit + totalTicksBefore k.plan.counterPeriod k.started instant

/-- No tick falls on an instant. -/
def Apart (k : Ledger) (instant : Nat) : Prop :=
  ∀ start ∈ k.started, ¬ IsTick k.plan.counterPeriod start instant

/-- The token has not fired, and after `n` updates the ledger balances. -/
structure Live (k : Ledger) (n : Nat) (w : World) : Prop where
  plan_eq : w.plan = k.plan
  notFired : w.fired = false
  cancelAt_eq : w.cancelAt = k.cut
  ahead : ∀ c ∈ k.cut, w.now ≤ c
  onSchedule : ∀ l ∈ w.loops, l.OnSchedule k.plan.counterPeriod k.started w.now
  balance : ∀ limit, w.now < limit → n + Loop.totalPending limit w.loops = k.expected limit
  device : w.device.Updated k.settings n

/-- The token fired at `instant`, and the `n` updates are those that were expected before it. -/
structure Over (k : Ledger) (instant n : Nat) (w : World) : Prop where
  plan_eq : w.plan = k.plan
  fired : w.fired = true
  cancelAt_eq : w.cancelAt = none
  balance : k.Apart instant → n = k.expected instant
  device : w.device.Updated k.settings n

/-- After `n` updates the ledger is right. -/
def Holds (k : Ledger) (n : Nat) (w : World) : Prop :=
  k.Live n w ∨ ∃ instant ∈ k.cut, k.Over instant n w

/-- What an outcome leaves and reports is right by the ledger, if there were `n` updates before. -/
def Reaches {α : Type} (k : Ledger) (n : Nat) (o : Outcome World α) : Prop :=
  k.Holds (n + updates o.events) o.state

/-- The process leaves the ledger right. -/
def Keeps {α : Type} (k : Ledger) (p : Process World α) : Prop :=
  ∀ (n : Nat) (w : World), k.Holds n w → k.Reaches n (p w)

variable {α β : Type} {k : Ledger} {n instant limit : Nat} {w w' : World}

/-! ## Worlds that agree -/

/-- All that a ledger looks at is the same in two worlds. -/
structure Agree (w w' : World) : Prop where
  plan_eq : w'.plan = w.plan
  now_eq : w'.now = w.now
  fired_eq : w'.fired = w.fired
  cancelAt_eq : w'.cancelAt = w.cancelAt
  loops_eq : w'.loops = w.loops
  device_eq : w'.device = w.device

theorem Live.of_agree (h : k.Live n w) (hagree : Agree w w') : k.Live n w' where
  plan_eq := hagree.plan_eq.trans h.plan_eq
  notFired := hagree.fired_eq.trans h.notFired
  cancelAt_eq := hagree.cancelAt_eq.trans h.cancelAt_eq
  ahead := by rw [hagree.now_eq]; exact h.ahead
  onSchedule := by rw [hagree.now_eq, hagree.loops_eq]; exact h.onSchedule
  balance := by rw [hagree.now_eq, hagree.loops_eq]; exact h.balance
  device := by rw [hagree.device_eq]; exact h.device

/-- Once the token has fired, the clock and the loops do not matter. -/
theorem Over.of_eq (h : k.Over instant n w) (hplan : w'.plan = w.plan)
    (hfired : w'.fired = w.fired) (hcancelAt : w'.cancelAt = w.cancelAt)
    (hdevice : w'.device = w.device) : k.Over instant n w' where
  plan_eq := hplan.trans h.plan_eq
  fired := hfired.trans h.fired
  cancelAt_eq := hcancelAt.trans h.cancelAt_eq
  balance := h.balance
  device := by rw [hdevice]; exact h.device

/-- The ledger with the instant at which the token is fired set to `instant`. -/
def closedAt (k : Ledger) (instant : Nat) : Ledger :=
  { k with cut := some instant }

theorem Over.of_agree (h : k.Over instant n w) (hagree : Agree w w') : k.Over instant n w' :=
  h.of_eq hagree.plan_eq hagree.fired_eq hagree.cancelAt_eq hagree.device_eq

theorem Holds.of_agree (h : k.Holds n w) (hagree : Agree w w') : k.Holds n w' := by
  rcases h with hlive | ⟨instant, hcut, hover⟩
  · exact Or.inl (hlive.of_agree hagree)
  · exact Or.inr ⟨instant, hcut, hover.of_agree hagree⟩

theorem Holds.live (h : k.Holds n w) (hfired : w.fired = false) : k.Live n w := by
  rcases h with hlive | ⟨instant, -, hover⟩
  · exact hlive
  · cases hover.fired.symm.trans hfired

theorem Holds.over (h : k.Holds n w) (hfired : w.fired = true) :
    ∃ instant ∈ k.cut, k.Over instant n w := by
  rcases h with hlive | hover
  · cases hlive.notFired.symm.trans hfired
  · exact hover

theorem Over.holds (h : k.Over instant n w) : (k.closedAt instant).Holds n w :=
  Or.inr ⟨instant, rfl, h.plan_eq, h.fired, h.cancelAt_eq, h.balance, h.device⟩

theorem Holds.over_of_closedAt (h : (k.closedAt instant).Holds n w) (hfired : w.fired = true) :
    k.Over instant n w := by
  rcases h.over hfired with ⟨instant', hinstant, hover⟩
  cases hinstant
  exact ⟨hover.plan_eq, hover.fired, hover.cancelAt_eq, hover.balance, hover.device⟩

theorem Holds.plan_eq (h : k.Holds n w) : w.plan = k.plan := by
  rcases h with hlive | ⟨_, -, hover⟩
  · exact hlive.plan_eq
  · exact hover.plan_eq

theorem Holds.ahead (h : k.Holds n w) : ∀ c ∈ w.cancelAt, w.now ≤ c := by
  rcases h with hlive | ⟨_, -, hover⟩
  · rw [hlive.cancelAt_eq]
    exact hlive.ahead
  · rw [hover.cancelAt_eq]
    exact nofun

/-! ## Transports that change -/

/-- The ledger with a transport that behaves in another way from now on. -/
def withTransport (k : Ledger) {t : TransportPlan} (ht : t.Discreet) : Ledger :=
  { k with
    plan := { k.plan with transport := t }
    discreet := ht }

variable {t : TransportPlan}

theorem Live.withTransport (h : k.Live n w) (ht : t.Discreet) :
    (k.withTransport ht).Live n (w.withTransport t) where
  plan_eq := congrArg (fun plan => { plan with transport := t }) h.plan_eq
  notFired := h.notFired
  cancelAt_eq := h.cancelAt_eq
  ahead := h.ahead
  onSchedule := h.onSchedule
  balance := h.balance
  device := h.device

theorem Over.withTransport (h : k.Over instant n w) (ht : t.Discreet) :
    (k.withTransport ht).Over instant n (w.withTransport t) where
  plan_eq := congrArg (fun plan => { plan with transport := t }) h.plan_eq
  fired := h.fired
  cancelAt_eq := h.cancelAt_eq
  balance := h.balance
  device := h.device

/-! ## Processes put one after the other -/

theorem Holds.reaches {o : Outcome World α} (h : k.Holds n w) (hagree : Agree w o.state)
    (hquiet : updates o.events = 0) : k.Reaches n o := by
  rw [Reaches, hquiet, Nat.add_zero]
  exact h.of_agree hagree

theorem reaches_bind {p : Process World α} {f : α → Process World β}
    (hf : k.Reaches (n + updates (p w).events) (f (p w).answer (p w).state)) :
    k.Reaches n ((p >>= f) w) := by
  rw [Reaches, Process.events_bind, updates_append, ← Nat.add_assoc]
  exact hf

theorem Reaches.bind {p : Process World α} {f : α → Process World β} (hp : k.Reaches n (p w))
    (hf : ∀ m, k.Holds m (p w).state → k.Reaches m (f (p w).answer (p w).state)) :
    k.Reaches n ((p >>= f) w) :=
  reaches_bind (hf _ hp)

/-! ## Ticks -/

/-- Loops that are due tick: what they have made is not to be made any longer. -/
theorem Live.tickTurn (h : k.Live n w) :
    k.Live (n + updates (World.tickTurn w).events) (World.tickTurn w).state := by
  have hevents : updates (World.tickTurn w).events =
      w.loops.countP fun l => l.IsDue w.now ∧ l.task = .counter :=
    (Loop.updates_tickAll _ _).trans (Loop.countP_due w.now w.loops .counter)
  have hbalance : ∀ limit, w.now < limit → n + updates (World.tickTurn w).events +
      Loop.totalPending limit (Loop.advance w.now w.loops) = k.expected limit := by
    intro limit hlimit
    rw [hevents, Nat.add_assoc, ← h.balance limit hlimit,
      Loop.totalPending_advance h.onSchedule hlimit]
  exact
    { h with
      onSchedule := Loop.onSchedule_advance h.onSchedule
      balance := hbalance
      device := Loop.updated_tickAll h.device _ }

theorem Live.begin (h : k.Live n w) : k.Live n (beginTurn w).state :=
  { h with
    onSchedule := Loop.onSchedule_begin h.onSchedule
    balance := fun limit hlimit =>
      (congrArg (n + ·) (Loop.totalPending_begin limit w.loops)).trans (h.balance limit hlimit) }

/-- The clock moves on to an instant before which nothing is due. -/
theorem Live.clock (h : k.Live n w) (hnow : w.now ≤ instant) (hcut : ∀ c ∈ k.cut, instant ≤ c)
    (hnext : ∀ l ∈ w.loops, 0 < l.period → instant ≤ l.next) :
    k.Live n { w with now := instant } :=
  { h with
    ahead := hcut
    onSchedule := fun l hl => (h.onSchedule l hl).mono (hnext l hl)
    balance := fun limit hlimit => h.balance limit (Nat.lt_of_le_of_lt hnow hlimit) }

/-- At an instant on which no tick falls, the updates are those that were expected before it. -/
theorem Live.eq_expected (h : k.Live n w) (hapart : k.Apart w.now) : n = k.expected w.now := by
  -- A loop that is due now would tick on an instant on which no tick falls.
  have hnone : Loop.totalPending (w.now + 1) w.loops = 0 := by
    refine Loop.totalPending_eq_zero ?_
    intro l hl hcounts
    have hschedule := h.onSchedule l hl
    rcases hschedule.next hcounts with ⟨start, hstart, htick⟩
    refine Nat.lt_of_le_of_ne (hschedule.notLate hcounts.2) ?_
    intro hnow
    rw [← hnow] at htick
    exact hapart start hstart htick
  have hbalance := h.balance (w.now + 1) (Nat.lt_succ_self _)
  rw [hnone, Nat.add_zero, expected, totalTicksBefore_succ hapart] at hbalance
  exact hbalance

/-- Firing the token closes the ledger. -/
theorem Live.fire (h : k.Live n w) : k.Over w.now n w.fire where
  plan_eq := h.plan_eq
  fired := rfl
  cancelAt_eq := rfl
  balance := h.eq_expected
  device := h.device

theorem Over.fire (h : k.Over instant n w) : k.Over instant n w.fire :=
  h.of_eq rfl h.fired.symm h.cancelAt_eq.symm rfl

/-! ## Turns -/

theorem updates_cancelTurn (w : World) : updates (cancelTurn w).events = 0 :=
  rfl

theorem updates_beginTurn (w : World) : updates (beginTurn w).events = 0 :=
  updates_eq_zero fun e he => Event.isUpdate_of_inBackground (inBackground_beginTurn w e he)

theorem updates_endTurn (w : World) : updates (endTurn w).events = 0 :=
  updates_eq_zero fun e he => Event.isUpdate_of_inBackground (inBackground_endTurn w e he)

/-- Once the token has fired, or when it is due to be fired, a turn ends the loops and does not
touch the device. -/
theorem turn_of_fired_or_due (hfired : w.fired = true ∨ w.CancelDue) :
    (turn w).state.loops = [] ∧ (turn w).state.device = w.device ∧
      updates (turn w).events = 0 := by
  have hcancelled : (cancelTurn w).state.fired = true ∧ (cancelTurn w).state.device = w.device := by
    have hstate : (cancelTurn w).state = if w.CancelDue then w.fire else w := rfl
    rw [hstate]
    by_cases hdue : w.CancelDue
    · rw [if_pos hdue]
      exact ⟨rfl, rfl⟩
    · rw [if_neg hdue]
      exact ⟨hfired.resolve_right hdue, rfl⟩
  have hbegun : (beginTurn (cancelTurn w).state).state.fired = true := hcancelled.1
  unfold turn
  simp only [Process.state_bind, Process.events_bind, Process.answer_get, Process.state_get,
    Process.events_get, hbegun, if_true, updates_append, updates_nil, updates_cancelTurn,
    updates_beginTurn, updates_endTurn, Nat.add_zero]
  exact ⟨rfl, hcancelled.2, trivial⟩

theorem Live.turn_of_not_due (h : k.Live n w) (hdue : ¬ w.CancelDue) :
    k.Live (n + updates (turn w).events) (turn w).state := by
  have hcancelled : (cancelTurn w).state = w := if_neg hdue
  have hbegun : (beginTurn w).state.fired = false := h.notFired
  have hlive := h.begin.tickTurn
  unfold turn
  simp only [Process.state_bind, Process.events_bind, Process.answer_get, Process.state_get,
    Process.events_get, hcancelled, hbegun, Bool.false_eq_true, if_false, updates_append,
    updates_nil, updates_cancelTurn, updates_beginTurn, Nat.zero_add]
  exact hlive

theorem Live.turn_of_due (h : k.Live n w) (hdue : w.CancelDue) :
    ∃ instant ∈ k.cut, k.Over instant (n + updates (turn w).events) (turn w).state := by
  rcases hdue with ⟨c, hc, hle⟩
  have hdue : w.CancelDue := ⟨c, hc, hle⟩
  rw [h.cancelAt_eq] at hc
  have hnow : w.now = c := Nat.le_antisymm (h.ahead c hc) hle
  have hcontrol : (turn w).state.control = w.fire.control := by
    rw [control_turn, if_pos hdue]
  rcases turn_of_fired_or_due (Or.inr hdue) with ⟨-, hdevice, hquiet⟩
  rw [hquiet, Nat.add_zero]
  refine ⟨c, hc, ?_⟩
  rw [← hnow]
  exact h.fire.of_eq (congrArg Control.plan hcontrol) (congrArg Control.fired hcontrol)
    (congrArg Control.cancelAt hcontrol) hdevice

theorem Over.turn (h : k.Over instant n w) :
    k.Over instant (n + updates (World.turn w).events) (World.turn w).state := by
  have hcontrol : (World.turn w).state.control = w.control := by
    refine (control_turn w).trans (if_neg ?_)
    rintro ⟨c, hc, -⟩
    rw [h.cancelAt_eq] at hc
    cases hc
  rcases turn_of_fired_or_due (Or.inl h.fired) with ⟨-, hdevice, hquiet⟩
  rw [hquiet, Nat.add_zero]
  exact h.of_eq (congrArg Control.plan hcontrol) (congrArg Control.fired hcontrol)
    (congrArg Control.cancelAt hcontrol) hdevice

theorem keeps_turn : k.Keeps turn := by
  intro n w h
  rcases h with hlive | ⟨instant, hcut, hover⟩
  · by_cases hdue : w.CancelDue
    · exact Or.inr (hlive.turn_of_due hdue)
    · exact Or.inl (hlive.turn_of_not_due hdue)
  · exact Or.inr ⟨instant, hcut, hover.turn⟩

/-! ## Time -/

/-- Up to the last tick before the limit the ledger stays right, and nothing is due after it. -/
theorem Live.elapse {past : List Event} (h : k.Live (n + updates past) w) (hnow : w.now ≤ limit)
    (hcut : ∀ c ∈ k.cut, limit ≤ c) :
    k.Live (n + updates (World.elapse limit w past).2) (World.elapse limit w past).1 ∧
      (World.elapse limit w past).1.now ≤ limit ∧
      ∀ l ∈ (World.elapse limit w past).1.loops, 0 < l.period → limit ≤ l.next := by
  -- By recursion on the ticks before the limit: the clock moves to the first of them, where all
  -- loops that are due tick at once.
  fun_induction World.elapse limit w past with
  | case1 w past hnone => exact ⟨h, hnow, fun l hl => Loop.firstTick?_eq_none hnone hl⟩
  | case2 w past instant hsome ticked ih =>
    rcases Loop.firstTick?_eq_some hsome with ⟨⟨l, hl, hperiod, hnext⟩, hlimit, hfirst⟩
    have hlater : w.now ≤ instant := by
      rw [← hnext]
      exact (h.onSchedule l hl).notLate hperiod
    have hcut' : ∀ c ∈ k.cut, instant ≤ c := by
      intro c hc
      exact Nat.le_trans (Nat.le_of_lt hlimit) (hcut c hc)
    have hticked := (h.clock hlater hcut' hfirst).tickTurn
    refine ih ?_ (Nat.le_of_lt hlimit)
    rw [updates_append, updates_reverse, Nat.add_comm (updates _), ← Nat.add_assoc]
    exact hticked

theorem Live.passUntil (h : k.Live n w) (hnow : w.now ≤ limit) (hcut : ∀ c ∈ k.cut, limit ≤ c) :
    k.Live (n + updates (World.passUntil limit w).events) (World.passUntil limit w).state := by
  have hstart : k.Live (n + updates []) w := h
  rcases hstart.elapse hnow hcut with ⟨hlive, hnow', hnext⟩
  have hevents : (World.passUntil limit w).events = (World.elapse limit w []).2.reverse := rfl
  rw [hevents, updates_reverse]
  exact hlive.clock hnow' hcut hnext

/-- Time passes, with the token where it is. -/
theorem Holds.passUntil (h : k.Holds n w) (hpass : w.MayPass limit) :
    k.Reaches n (World.passUntil limit w) := by
  rcases h with hlive | ⟨instant, hfiring, hover⟩
  · have hcut := hpass.undisturbed
    rw [hlive.cancelAt_eq] at hcut
    exact Or.inl (hlive.passUntil hpass.ahead hcut)
  · rw [passUntil_of_no_loops (hpass.ended hover.fired)]
    exact Or.inr ⟨instant, hfiring, hover.of_eq rfl rfl rfl rfl⟩

/-! ## Waits of the main task -/

/-- The ledger stays right from one world to a later one. -/
def Stays (k : Ledger) (w : World) (events : List Event) (w' : World) : Prop :=
  ∀ n, k.Holds n w → k.Holds (n + updates events) w'

instance : Process.Cumulative k.Stays where
  nil w n h := h
  append {w w' w'' before after} h h' n hn := by
    rw [updates_append, ← Nat.add_assoc]
    exact h' _ (h n hn)

theorem stays_turn (w : World) : Process.Upholds k.Stays World.turn w :=
  fun n h => keeps_turn n w h

theorem stays_passUntil (hpass : w.MayPass limit) :
    Process.Upholds k.Stays (World.passUntil limit) w :=
  fun _ h => h.passUntil hpass

theorem keeps_awaitToken : k.Keeps awaitToken :=
  fun n w h => upholds_awaitToken stays_turn stays_passUntil w n h

theorem keeps_pause (span : Nat) : k.Keeps (pause span) :=
  fun n w h => upholds_pause stays_turn stays_passUntil span w n h

end Ledger

end Fieldbus
