import Fieldbus.Proofs.Supervisor.Balance
import Fieldbus.Proofs.Supervisor.Twins

/-!
# Health checks by the ledger

A health check shows the statistics and the counter that the device has at an instant (`Checkup`).
Until the token fires, the checks that were made and those that the loops have yet to make add up to
the schedule of the starts (`Checkups.Ongoing`); once it has fired, the checks stay those of the
schedule before that instant (`Checkups.Complete`).  What a check shows follows from the ledger.
-/

namespace Fieldbus

/-- What a health check shows, and when it is made. -/
structure Checkup where
  instant : Nat
  statistics : Statistics
  counter : UInt16

/-- The report of a health check. -/
def Checkup.event (c : Checkup) : Event :=
  .healthChecked c.statistics.requests c.statistics.errors c.statistics.identityErrors
    c.statistics.addressErrors c.counter

/-- The health checks among events. -/
def checks (events : List Event) : List Event :=
  events.filter (·.isCheck)

theorem checks_append (before after : List Event) :
    checks (before ++ after) = checks before ++ checks after :=
  List.filter_append ..

theorem checks_cons {e : Event} (he : e.isCheck = false) (events : List Event) :
    checks (e :: events) = checks events :=
  List.filter_cons_of_neg (Bool.not_eq_true _ ▸ he)

theorem checks_eq_nil {events : List Event} (h : ∀ e ∈ events, e.isCheck = false) :
    checks events = [] := by
  refine List.filter_eq_nil_iff.mpr ?_
  intro e he
  simp [h e he]

theorem checks_of_isDevice {events : List Event} (h : ∀ e ∈ events, e.isDevice = true) :
    checks events = [] :=
  checks_eq_nil fun e he => Event.isCheck_of_isDevice (h e he)

theorem checks_of_inBackground {events : List Event} (h : ∀ e ∈ events, e.InBackground) :
    checks events = [] :=
  checks_eq_nil fun e he => Event.isCheck_of_inBackground (h e he)

theorem Event.isCheck_of_ofAttempt {e : Event} (h : e.OfAttempt) : e.isCheck = false := by
  cases e with
  | healthChecked => exact False.elim h
  | _ => rfl

/-- The transport reports neither updates of the counter nor health checks. -/
structure TransportPlan.Reticent (t : TransportPlan) : Prop where
  discreet : t.Discreet
  up : checks t.upEvents = []
  down : checks t.downEvents = []

/-! ## Health checks that are still to be made -/

namespace Loop

/-- The loop with the other task.  What is known of the ticks of counter loops is thus known of those
of health loops. -/
def exchanged (l : Loop) : Loop :=
  { l with task := match l.task with
      | .counter => .health
      | .health => .counter }

/-- How many health checks loops have yet to make before `limit`. -/
def pendingChecks (limit : Nat) (loops : List Loop) : Nat :=
  totalPending limit (loops.map exchanged)

variable {period now limit : Nat} {starts : List Nat} {loops : List Loop} {l : Loop}

theorem exchanged_counter_iff : l.exchanged.task = .counter ↔ l.task = .health := by
  cases htask : l.task <;> simp [exchanged, htask]

theorem advance_exchanged (now : Nat) (loops : List Loop) :
    advance now (loops.map exchanged) = (advance now loops).map exchanged := by
  rw [advance, advance, List.map_map, List.map_map]
  refine List.map_congr_left ?_
  intro l _
  have hdue : l.exchanged.IsDue now ↔ l.IsDue now := Iff.rfl
  by_cases h : l.IsDue now
  · simp only [Function.comp_apply, hdue, h, if_true]
    rfl
  · simp only [Function.comp_apply, hdue, h, if_false]

theorem begin_exchanged (loops : List Loop) :
    ((loops.map exchanged).filter fun l => l.period ≠ 0).map (fun l => { l with begun := true }) =
      ((loops.filter fun l => l.period ≠ 0).map fun l => { l with begun := true }).map
        exchanged := by
  rw [List.filter_map, List.map_map, List.map_map]
  rfl

theorem pendingChecks_eq_zero (h : ∀ l ∈ loops, 0 < l.period → limit ≤ l.next) :
    pendingChecks limit loops = 0 := by
  refine totalPending_eq_zero ?_
  intro l hl hcounts
  rcases List.mem_map.mp hl with ⟨old, hold, rfl⟩
  exact h old hold hcounts.2

theorem pendingChecks_begin (limit : Nat) (loops : List Loop) :
    pendingChecks limit
        ((loops.filter fun l => l.period ≠ 0).map fun l => { l with begun := true }) =
      pendingChecks limit loops := by
  rw [pendingChecks, ← begin_exchanged]
  exact totalPending_begin limit _

theorem pendingChecks_spawn (limit : Nat) (loops : List Loop) (counter period now : Nat) :
    pendingChecks limit (loops ++ [.spawn .counter counter now, .spawn .health period now]) =
      pendingChecks limit loops + ticksBefore period now limit := by
  have hspawn := totalPending_spawn limit (loops.map exchanged) period counter now
  have hexchanged : (loops ++ [spawn .counter counter now, spawn .health period now]).map
      exchanged = loops.map exchanged ++
        [spawn .health counter now, spawn .counter period now] :=
    List.map_append
  rw [pendingChecks, hexchanged]
  simp only [totalPending, pendingChecks, sumOf_append, sumOf] at hspawn ⊢
  omega

/-- The health checks that are due at an instant are made there. -/
theorem pendingChecks_advance
    (h : ∀ l ∈ loops.map exchanged, l.OnSchedule period starts now) (hlimit : now < limit) :
    pendingChecks limit loops =
      loops.countP (fun l => l.IsDue now ∧ l.task = .health) +
        pendingChecks limit (advance now loops) := by
  have hcount : ((loops.map exchanged).countP fun l => l.IsDue now ∧ l.task = .counter) =
      loops.countP fun l => l.IsDue now ∧ l.task = .health := by
    rw [List.countP_map]
    refine List.countP_congr ?_
    intro l _
    have hdue : l.exchanged.IsDue now ↔ l.IsDue now := Iff.rfl
    simp only [Function.comp_apply, hdue, exchanged_counter_iff]
  rw [pendingChecks, pendingChecks, ← hcount, ← advance_exchanged]
  exact totalPending_advance h hlimit

/-- What loops that tick at one instant show: the statistics as they are, and the counter as it is
unless a counter loop ticks too. -/
theorem exists_checkups_tickAll (now : Nat) (loops : List Loop) (d : Device) :
    ∃ made : List Checkup, checks (tickAll loops d).events = made.map Checkup.event ∧
      made.length = loops.countP (fun l => l.task = .health) ∧
      ∀ c ∈ made, c.instant = now ∧ c.statistics = d.statistics ∧
        ((∀ l ∈ loops, l.task ≠ .counter) → c.counter = d.counter) := by
  induction loops generalizing d with
  | nil => exact ⟨[], rfl, rfl, nofun⟩
  | cons l loops ih =>
    have hevents : checks (tickAll (l :: loops) d).events =
        checks (l.task.tick d).events ++ checks (tickAll loops (l.task.tick d).state).events :=
      checks_append ..
    rw [hevents]
    cases htask : l.task with
    | counter =>
      rcases ih d.increment.state with ⟨made, hmade, hlength, hshown⟩
      have hnone : checks (Task.counter.tick d).events = [] :=
        checks_of_isDevice d.isDevice_increment
      refine ⟨made, ?_, ?_, ?_⟩
      · rw [hnone]
        exact hmade
      · rw [List.countP_cons_of_neg (by simp [htask]), hlength]
      · intro c hc
        rcases hshown c hc with ⟨hinstant, hstatistics, -⟩
        exact ⟨hinstant, hstatistics, fun h => absurd htask (h l List.mem_cons_self)⟩
    | health =>
      rcases ih d with ⟨made, hmade, hlength, hshown⟩
      refine ⟨⟨now, d.statistics, d.counter⟩ :: made, ?_, ?_, ?_⟩
      · exact congrArg (_ :: ·) hmade
      · rw [List.countP_cons_of_pos (by simp [htask]), List.length_cons, hlength]
      · intro c hc
        rcases List.mem_cons.mp hc with rfl | hc
        · exact ⟨rfl, rfl, fun _ => rfl⟩
        · rcases hshown c hc with ⟨hinstant, hstatistics, hcounter⟩
          exact ⟨hinstant, hstatistics, fun h =>
            hcounter fun l hl => h l (List.mem_cons_of_mem _ hl)⟩

theorem statistics_tickAll (loops : List Loop) (d : Device) :
    (tickAll loops d).state.statistics = d.statistics := by
  induction loops generalizing d with
  | nil => rfl
  | cons l loops ih =>
    have hfirst : (l.task.tick d).state.statistics = d.statistics := by
      cases l.task <;> rfl
    exact (ih _).trans hfirst

end Loop

/-! ## Checks on schedule -/

namespace Checkups

/-- Before the token fires: the checks that were made, and those that the loops of a world have yet
to make, are those of loops with one period that were spawned at the instants `starts`. -/
structure Ongoing (period : Nat) (starts : List Nat) (made : List Checkup) (w : World) : Prop where
  onSchedule : ∀ l ∈ w.loops.map Loop.exchanged, l.OnSchedule period starts w.now
  balance : ∀ limit, made.countP (fun c => c.instant < limit) + Loop.pendingChecks limit w.loops =
    totalTicksBefore period starts limit
  sorted : made.Pairwise fun c c' => c.instant ≤ c'.instant
  past : ∀ c ∈ made, c.instant ≤ w.now

/-- Up to an instant, the checks are those of loops that were spawned at the instants `starts`, and
there are none after it. -/
structure Complete (period : Nat) (starts : List Nat) (made : List Checkup) (instant : Nat) :
    Prop where
  balance : ∀ limit ≤ instant,
    made.countP (fun c => c.instant < limit) = totalTicksBefore period starts limit
  sorted : made.Pairwise fun c c' => c.instant ≤ c'.instant
  past : ∀ c ∈ made, c.instant ≤ instant

variable {period instant : Nat} {starts : List Nat} {made later : List Checkup} {w w' : World}

theorem Ongoing.notLate (h : Ongoing period starts made w) : w.Punctual :=
  fun _ hl hperiod => (h.onSchedule _ (List.mem_map_of_mem hl)).notLate hperiod

theorem Ongoing.complete (h : Ongoing period starts made w) : Complete period starts made w.now where
  balance := by
    intro limit hlimit
    have hnone : Loop.pendingChecks limit w.loops = 0 := Loop.pendingChecks_eq_zero
      fun l hl hperiod => Nat.le_trans hlimit (h.notLate l hl hperiod)
    have hbalance := h.balance limit
    rw [hnone, Nat.add_zero] at hbalance
    exact hbalance
  sorted := h.sorted
  past := h.past

theorem Ongoing.of_eq (h : Ongoing period starts made w) (hnow : w'.now = w.now)
    (hloops : w'.loops = w.loops) : Ongoing period starts made w' where
  onSchedule := by rw [hnow, hloops]; exact h.onSchedule
  balance := by rw [hloops]; exact h.balance
  sorted := h.sorted
  past := by rw [hnow]; exact h.past

theorem Ongoing.begin (h : Ongoing period starts made w) :
    Ongoing period starts made (World.beginTurn w).state where
  onSchedule := by
    have hbegun := Loop.onSchedule_begin h.onSchedule
    rw [Loop.begin_exchanged] at hbegun
    exact hbegun
  balance := fun limit =>
    (congrArg (_ + ·) (Loop.pendingChecks_begin limit w.loops)).trans (h.balance limit)
  sorted := h.sorted
  past := h.past

/-- The clock moves on after the ticks of an instant. -/
theorem Ongoing.tock (h : Ongoing period starts made w) (hticked : w.Ticked) :
    Ongoing period starts made (World.tock w).state where
  onSchedule := by
    intro l hl
    rcases List.mem_map.mp hl with ⟨old, hold, rfl⟩
    exact (h.onSchedule _ hl).mono (hticked old hold)
  balance := h.balance
  sorted := h.sorted
  past := fun c hc => Nat.le_succ_of_le (h.past c hc)

theorem Ongoing.spawnLoops (h : Ongoing w.plan.healthPeriod starts made w) :
    Ongoing w.plan.healthPeriod (starts ++ [w.now]) made (World.spawnLoops w) where
  onSchedule := by
    have hspawned := Loop.onSchedule_spawn h.onSchedule w.plan.counterPeriod
    intro l hl
    refine hspawned l ?_
    simp only [World.spawnLoops, List.map_append, List.map_cons, List.map_nil, List.mem_append,
      List.mem_cons, List.not_mem_nil, or_false] at hl ⊢
    exact hl.imp_right Or.symm
  balance := by
    intro limit
    have hspawned := Loop.pendingChecks_spawn limit w.loops w.plan.counterPeriod
      w.plan.healthPeriod w.now
    rw [World.spawnLoops, hspawned, totalTicksBefore_concat, ← h.balance limit, Nat.add_assoc]
  sorted := h.sorted
  past := h.past

/-- The checks of one instant are made. -/
theorem Ongoing.tickTurn (h : Ongoing period starts made w)
    (hlength : later.length = w.loops.countP fun l => l.IsDue w.now ∧ l.task = .health)
    (hinstant : ∀ c ∈ later, c.instant = w.now) :
    Ongoing period starts (made ++ later) (World.tickTurn w).state where
  onSchedule := by
    have hticked := Loop.onSchedule_advance h.onSchedule
    rw [Loop.advance_exchanged] at hticked
    exact hticked
  balance := by
    intro limit
    have hbefore := h.balance limit
    rw [List.countP_append]
    rcases Nat.lt_or_ge w.now limit with hlimit | hlimit
    · have hall : later.countP (fun c => c.instant < limit) = later.length := by
        refine List.countP_eq_length.mpr ?_
        intro c hc
        rw [hinstant c hc]
        exact decide_eq_true hlimit
      rw [Loop.pendingChecks_advance h.onSchedule hlimit] at hbefore
      rw [hall, hlength]
      show _ + Loop.pendingChecks limit (Loop.advance w.now w.loops) = _
      omega
    · -- Nothing of this instant counts before the limit, neither now nor later.
      have hnone : later.countP (fun c => c.instant < limit) = 0 := by
        refine List.countP_eq_zero.mpr ?_
        intro c hc
        rw [hinstant c hc]
        simpa using hlimit
      have hpending : Loop.pendingChecks limit w.loops = 0 := Loop.pendingChecks_eq_zero
        fun l hl hperiod => Nat.le_trans hlimit (h.notLate l hl hperiod)
      have hpending' : Loop.pendingChecks limit (World.tickTurn w).state.loops = 0 :=
        Loop.pendingChecks_eq_zero fun l hl hperiod =>
          Nat.le_trans hlimit (Nat.le_of_lt (World.ticked_tickTurn w l hl hperiod))
      omega
  sorted := by
    refine List.pairwise_append.mpr ⟨h.sorted, ?_, ?_⟩
    · refine List.pairwise_of_forall_mem_list ?_
      intro c hc c' hc'
      exact Nat.le_of_eq ((hinstant c hc).trans (hinstant c' hc').symm)
    · intro c hc c' hc'
      rw [hinstant c' hc']
      exact h.past c hc
  past := by
    intro c hc
    rcases List.mem_append.mp hc with hc | hc
    · exact h.past c hc
    · exact Nat.le_of_eq (hinstant c hc)

end Checkups

end Fieldbus
