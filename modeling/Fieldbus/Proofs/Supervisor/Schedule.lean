import Fieldbus.Proofs.Device.Updates
import Fieldbus.Supervisor.Loop

/-!
# Schedules

The ticks of a loop are fixed when it is spawned: one period later, and then once per period.  While
the loop runs, the ticks it has made and those it has yet to make before an instant add up to the
ticks of its schedule before that instant.
-/

namespace Fieldbus

/-! ## Sums -/

/-- The sum of `f` over a list. -/
def sumOf {α : Type} (f : α → Nat) : List α → Nat
  | [] => 0
  | a :: as => f a + sumOf f as

section

variable {α : Type} {f g : α → Nat} {as : List α}

theorem sumOf_append (f : α → Nat) (before after : List α) :
    sumOf f (before ++ after) = sumOf f before + sumOf f after := by
  induction before with
  | nil => exact (Nat.zero_add _).symm
  | cons a before ih => rw [List.cons_append, sumOf, sumOf, ih, Nat.add_assoc]

theorem sumOf_congr (h : ∀ a ∈ as, f a = g a) : sumOf f as = sumOf g as := by
  induction as with
  | nil => rfl
  | cons a as ih =>
    rw [List.forall_mem_cons] at h
    rw [sumOf, sumOf, h.1, ih h.2]

theorem sumOf_eq_zero (h : ∀ a ∈ as, f a = 0) : sumOf f as = 0 := by
  induction as with
  | nil => rfl
  | cons a as ih =>
    rw [List.forall_mem_cons] at h
    rw [sumOf, h.1, ih h.2]

end

/-! ## Instants of ticks -/

/-- A loop with the period `period` that was spawned at the instant `start` ticks at `instant`. -/
def IsTick (period start instant : Nat) : Prop :=
  start < instant ∧ period ∣ instant - start

instance (period start instant : Nat) : Decidable (IsTick period start instant) :=
  inferInstanceAs (Decidable (_ ∧ _))

/-- How many ticks of such a loop come before the instant `limit`. -/
def ticksBefore (period start limit : Nat) : Nat :=
  (List.range limit).countP fun instant => IsTick period start instant

/-- How many ticks before `limit` the loops make that were spawned at the instants `starts`. -/
def totalTicksBefore (period : Nat) (starts : List Nat) (limit : Nat) : Nat :=
  sumOf (ticksBefore period · limit) starts

section

variable {period start instant limit : Nat} {starts : List Nat}

/-- The ticks come one period after the loop was spawned, two periods, and so on. -/
theorem isTick_iff :
    IsTick period start instant ↔
      0 < period ∧ ∃ count, instant = start + (count + 1) * period := by
  constructor
  · rintro ⟨hlater, count, hcount⟩
    cases count with
    | zero => omega
    | succ count =>
      have hperiod : 0 < period := by
        rcases Nat.eq_zero_or_pos period with hzero | hpositive
        · rw [hzero, Nat.zero_mul] at hcount
          omega
        · exact hpositive
      refine ⟨hperiod, count, ?_⟩
      rw [Nat.mul_comm] at hcount
      omega
  · rintro ⟨hperiod, count, rfl⟩
    have hpositive : 0 < (count + 1) * period := Nat.mul_pos (Nat.succ_pos count) hperiod
    refine ⟨Nat.lt_add_of_pos_right hpositive, count + 1, ?_⟩
    rw [Nat.mul_comm, Nat.add_sub_cancel_left]

theorem IsTick.pos (h : IsTick period start instant) : 0 < period :=
  (isTick_iff.mp h).1

theorem IsTick.le (h : IsTick period start instant) : start + period ≤ instant := by
  have hle : period ≤ instant - start := Nat.le_of_dvd (Nat.sub_pos_of_lt h.1) h.2
  have hlater := h.1
  omega

theorem isTick_first (hperiod : 0 < period) (start : Nat) :
    IsTick period start (start + period) :=
  ⟨Nat.lt_add_of_pos_right hperiod, 1, by rw [Nat.add_sub_cancel_left, Nat.mul_one]⟩

/-- The ticks after the first are those of a loop that is spawned at the first. -/
theorem isTick_iff_first_or (hperiod : 0 < period) :
    IsTick period start instant ↔
      instant = start + period ∨ IsTick period (start + period) instant := by
  constructor
  · intro h
    rcases Nat.eq_or_lt_of_le h.le with heq | hlt
    · exact Or.inl heq.symm
    · refine Or.inr ⟨hlt, ?_⟩
      rw [← Nat.sub_sub]
      exact Nat.dvd_sub h.2 (Nat.dvd_refl period)
  · rintro (rfl | h)
    · exact isTick_first hperiod start
    · have hsplit : instant - start = instant - (start + period) + period := by
        have hlater := h.1
        omega
      refine ⟨Nat.lt_trans (Nat.lt_add_of_pos_right hperiod) h.1, ?_⟩
      rw [hsplit]
      exact Nat.dvd_add h.2 (Nat.dvd_refl period)

theorem IsTick.next (h : IsTick period start instant) :
    IsTick period start (instant + period) := by
  have hsplit : instant + period - start = instant - start + period := by
    have hlater := h.1
    omega
  refine ⟨Nat.lt_of_lt_of_le h.1 (Nat.le_add_right ..), ?_⟩
  rw [hsplit]
  exact Nat.dvd_add h.2 (Nat.dvd_refl period)

/-! ## Counting ticks -/

theorem ticksBefore_succ (period start limit : Nat) :
    ticksBefore period start (limit + 1) =
      ticksBefore period start limit + if IsTick period start limit then 1 else 0 := by
  rw [ticksBefore, ticksBefore, List.range_succ, List.countP_append, List.countP_singleton]
  simp only [decide_eq_true_eq]

theorem ticksBefore_eq_zero (hlimit : limit ≤ start + period) :
    ticksBefore period start limit = 0 := by
  rw [ticksBefore, List.countP_eq_zero]
  intro instant hinstant htick
  have hbefore : instant < limit := List.mem_range.mp hinstant
  have hafter : start + period ≤ instant := (of_decide_eq_true htick).le
  omega

theorem ticksBefore_of_no_period (start limit : Nat) : ticksBefore 0 start limit = 0 := by
  rw [ticksBefore, List.countP_eq_zero]
  intro instant _ htick
  exact Nat.lt_irrefl 0 (of_decide_eq_true htick : IsTick 0 start instant).pos

/-- The first tick, and then the ticks of a loop that is spawned there. -/
theorem ticksBefore_eq_first_add (hperiod : 0 < period) (hlimit : start + period < limit) :
    ticksBefore period start limit = 1 + ticksBefore period (start + period) limit := by
  -- By induction on the limit, from the instant after the first tick on.
  induction limit with
  | zero => omega
  | succ limit ih =>
    rw [ticksBefore_succ, ticksBefore_succ]
    rcases Nat.eq_or_lt_of_le (Nat.le_of_lt_succ hlimit) with hfirst | hlater
    · have hnone : ticksBefore period start limit = 0 :=
        ticksBefore_eq_zero (Nat.le_of_eq hfirst.symm)
      have hrest : ticksBefore period (start + period) limit = 0 :=
        ticksBefore_eq_zero (by omega)
      have htick : IsTick period start limit := hfirst ▸ isTick_first hperiod start
      have hnot : ¬ IsTick period (start + period) limit := fun h => by
        have hlt := h.1
        omega
      rw [hnone, hrest, if_pos htick, if_neg hnot]
    · have hne : limit ≠ start + period := Nat.ne_of_gt hlater
      have hiff : IsTick period start limit ↔ IsTick period (start + period) limit := by
        rw [isTick_iff_first_or hperiod, or_iff_right hne]
      rw [ih hlater]
      simp only [hiff]
      omega

theorem totalTicksBefore_concat (period : Nat) (starts : List Nat) (start limit : Nat) :
    totalTicksBefore period (starts ++ [start]) limit =
      totalTicksBefore period starts limit + ticksBefore period start limit :=
  sumOf_append _ starts [start]

theorem totalTicksBefore_of_no_period (starts : List Nat) (limit : Nat) :
    totalTicksBefore 0 starts limit = 0 :=
  sumOf_eq_zero fun start _ => ticksBefore_of_no_period start limit

/-- An instant without a tick adds nothing. -/
theorem totalTicksBefore_succ (h : ∀ start ∈ starts, ¬ IsTick period start limit) :
    totalTicksBefore period starts (limit + 1) = totalTicksBefore period starts limit := by
  refine sumOf_congr ?_
  intro start hstart
  rw [ticksBefore_succ, if_neg (h start hstart), Nat.add_zero]

end

/-! ## Ticks of the counter that are still to be made -/

namespace Loop

/-- The loop advances the counter. -/
def Counts (l : Loop) : Prop :=
  l.task = .counter ∧ 0 < l.period

instance (l : Loop) : Decidable l.Counts :=
  inferInstanceAs (Decidable (_ ∧ _))

/-- How many ticks of the counter the loop has yet to make before `limit`. -/
def pending (limit : Nat) (l : Loop) : Nat :=
  if l.Counts then ticksBefore l.period (l.next - l.period) limit else 0

/-- How many ticks of the counter loops have yet to make before `limit`. -/
def totalPending (limit : Nat) (loops : List Loop) : Nat :=
  sumOf (pending limit) loops

/-- The loop is on schedule at the instant `now`: it is not late, and if it advances the counter it
has the given period and ticks next when a loop ticks that was spawned at one of the instants
`starts`. -/
structure OnSchedule (period : Nat) (starts : List Nat) (now : Nat) (l : Loop) : Prop where
  notLate : 0 < l.period → now ≤ l.next
  period_eq : l.Counts → l.period = period
  next : l.Counts → ∃ start ∈ starts, IsTick period start l.next

variable {period now instant limit : Nat} {starts : List Nat} {loops : List Loop} {l : Loop}

theorem totalPending_cons (limit : Nat) (l : Loop) (loops : List Loop) :
    totalPending limit (l :: loops) = l.pending limit + totalPending limit loops :=
  rfl

theorem pending_eq_zero_of_not_counts (h : ¬ l.Counts) : l.pending limit = 0 :=
  if_neg h

theorem totalPending_eq_zero (h : ∀ l ∈ loops, l.Counts → limit ≤ l.next) :
    totalPending limit loops = 0 := by
  refine sumOf_eq_zero ?_
  intro l hl
  by_cases hcounts : l.Counts
  · have hlimit := h l hl hcounts
    rw [pending, if_pos hcounts]
    exact ticksBefore_eq_zero (by omega)
  · exact pending_eq_zero_of_not_counts hcounts

/-! ## Keeping the schedule -/

namespace OnSchedule

theorem mono (h : l.OnSchedule period starts now) (hlate : 0 < l.period → instant ≤ l.next) :
    l.OnSchedule period starts instant :=
  ⟨hlate, h.period_eq, h.next⟩

theorem started (h : l.OnSchedule period starts now) (start : Nat) :
    l.OnSchedule period (starts ++ [start]) now := by
  refine ⟨h.notLate, h.period_eq, ?_⟩
  intro hcounts
  rcases h.next hcounts with ⟨first, hfirst, htick⟩
  exact ⟨first, List.mem_append_left _ hfirst, htick⟩

theorem spawn_counter (hnow : now ∈ starts) :
    OnSchedule period starts now (.spawn .counter period now) :=
  ⟨fun _ => Nat.le_add_right .., fun _ => rfl, fun h => ⟨now, hnow, isTick_first h.2 now⟩⟩

theorem spawn_health (health : Nat) : OnSchedule period starts now (.spawn .health health now) :=
  ⟨fun _ => Nat.le_add_right .., fun h => (nomatch h.1), fun h => (nomatch h.1)⟩

/-- A tick at the instant for which it was due leads to the next. -/
theorem ticked (h : l.OnSchedule period starts now) (hdue : l.IsDue now) :
    (l.ticked now).OnSchedule period starts now := by
  refine ⟨fun _ => Nat.le_add_right .., h.period_eq, ?_⟩
  intro hcounts
  rcases h.next hcounts with ⟨start, hstart, htick⟩
  have hnow : l.next = now := Nat.le_antisymm hdue.2 (h.notLate hdue.1)
  rw [hnow] at htick
  refine ⟨start, hstart, ?_⟩
  rw [Loop.ticked, h.period_eq hcounts]
  exact htick.next

end OnSchedule

theorem onSchedule_spawn (h : ∀ l ∈ loops, l.OnSchedule period starts now) (health : Nat) :
    ∀ l ∈ loops ++ [.spawn .counter period now, .spawn .health health now],
      l.OnSchedule period (starts ++ [now]) now := by
  intro l hl
  simp only [List.mem_append, List.mem_cons, List.not_mem_nil, or_false] at hl
  rcases hl with hold | rfl | rfl
  · exact (h l hold).started now
  · exact OnSchedule.spawn_counter (List.mem_append_right _ List.mem_cons_self)
  · exact OnSchedule.spawn_health health

theorem onSchedule_begin (h : ∀ l ∈ loops, l.OnSchedule period starts now) :
    ∀ l ∈ (loops.filter fun l => l.period ≠ 0).map fun l => { l with begun := true },
      l.OnSchedule period starts now := by
  intro l hl
  rcases List.mem_map.mp hl with ⟨old, hold, rfl⟩
  have hsame := h old (List.mem_filter.mp hold).1
  exact ⟨hsame.notLate, hsame.period_eq, hsame.next⟩

theorem onSchedule_advance (h : ∀ l ∈ loops, l.OnSchedule period starts now) :
    ∀ l ∈ advance now loops, l.OnSchedule period starts now := by
  intro l hl
  rcases List.mem_map.mp hl with ⟨old, hold, rfl⟩
  split
  · rename_i hdue
    exact (h old hold).ticked hdue
  · exact h old hold

/-! ## What becomes of the ticks to be made -/

/-- A loop that is spawned has its whole schedule before it. -/
theorem totalPending_spawn (limit : Nat) (loops : List Loop) (period health now : Nat) :
    totalPending limit (loops ++ [.spawn .counter period now, .spawn .health health now]) =
      totalPending limit loops + ticksBefore period now limit := by
  have hcounter : pending limit (.spawn .counter period now) = ticksBefore period now limit := by
    by_cases hperiod : 0 < period
    · have hcounts : (spawn .counter period now).Counts := ⟨rfl, hperiod⟩
      rw [pending, if_pos hcounts, Loop.spawn, Nat.add_sub_cancel]
    · rw [pending_eq_zero_of_not_counts fun hcounts => hperiod hcounts.2,
        Nat.eq_zero_of_not_pos hperiod, ticksBefore_of_no_period]
  have hhealth : pending limit (.spawn .health health now) = 0 :=
    pending_eq_zero_of_not_counts fun hcounts => nomatch hcounts.1
  rw [totalPending, sumOf_append, sumOf, sumOf, sumOf, hcounter, hhealth]
  rfl

theorem totalPending_begin (limit : Nat) (loops : List Loop) :
    totalPending limit
        ((loops.filter fun l => l.period ≠ 0).map fun l => { l with begun := true }) =
      totalPending limit loops := by
  induction loops with
  | nil => rfl
  | cons l loops ih =>
    by_cases hperiod : l.period = 0
    · have hnone : l.pending limit = 0 :=
        pending_eq_zero_of_not_counts fun hcounts => Nat.ne_of_gt hcounts.2 hperiod
      rw [List.filter_cons_of_neg (by simp [hperiod]), ih, totalPending_cons, hnone, Nat.zero_add]
    · rw [List.filter_cons_of_pos (by simp [hperiod]), List.map_cons, totalPending_cons, ih]
      rfl

theorem pending_eq_succ_of_isDue (h : l.OnSchedule period starts now) (hdue : l.IsDue now)
    (hcounter : l.task = .counter) (hlimit : now < limit) :
    l.pending limit = 1 + (l.ticked now).pending limit := by
  have hcounts : l.Counts := ⟨hcounter, hdue.1⟩
  have hcounts' : (l.ticked now).Counts := hcounts
  have hnow : l.next = now := Nat.le_antisymm hdue.2 (h.notLate hdue.1)
  have hspawned : l.period ≤ now := by
    rcases h.next hcounts with ⟨start, -, htick⟩
    have hfirst := htick.le
    rw [← h.period_eq hcounts, hnow] at hfirst
    omega
  -- Before its tick the loop is as one that was spawned a period ago, and after it as one spawned
  -- now.
  have hticks : ticksBefore l.period (now - l.period) limit =
      1 + ticksBefore l.period now limit := by
    have hfirst : now - l.period + l.period < limit :=
      Nat.lt_of_le_of_lt (Nat.le_of_eq (Nat.sub_add_cancel hspawned)) hlimit
    calc
      ticksBefore l.period (now - l.period) limit
          = 1 + ticksBefore l.period (now - l.period + l.period) limit :=
        ticksBefore_eq_first_add hdue.1 hfirst
      _ = 1 + ticksBefore l.period now limit := by rw [Nat.sub_add_cancel hspawned]
  rw [pending, if_pos hcounts, hnow, hticks, pending, if_pos hcounts', ticked, Nat.add_sub_cancel]

/-- The ticks that are due at an instant are made there, and are not to be made any longer. -/
theorem totalPending_advance (h : ∀ l ∈ loops, l.OnSchedule period starts now)
    (hlimit : now < limit) :
    totalPending limit loops =
      loops.countP (fun l => l.IsDue now ∧ l.task = .counter) +
        totalPending limit (advance now loops) := by
  induction loops with
  | nil => rfl
  | cons l loops ih =>
    rw [List.forall_mem_cons] at h
    have hadvance : advance now (l :: loops) =
        (if l.IsDue now then l.ticked now else l) :: advance now loops := rfl
    rw [hadvance, totalPending_cons, totalPending_cons, List.countP_cons, ih h.2]
    by_cases hdue : l.IsDue now
    · by_cases hcounter : l.task = .counter
      · rw [pending_eq_succ_of_isDue h.1 hdue hcounter hlimit]
        simp only [hdue, hcounter, and_self, decide_true, if_true]
        omega
      · have hnone : l.pending limit = 0 :=
          pending_eq_zero_of_not_counts fun hcounts => hcounter hcounts.1
        have hnone' : (l.ticked now).pending limit = 0 :=
          pending_eq_zero_of_not_counts fun hcounts => hcounter hcounts.1
        simp only [hdue, hcounter, and_false, decide_false, if_true, Bool.false_eq_true, if_false,
          hnone, hnone', Nat.add_zero, Nat.zero_add]
    · simp only [hdue, false_and, decide_false, Bool.false_eq_true, if_false, Nat.add_zero]
      omega

/-! ## Ticking -/

/-- Loops that tick update the counter as often as there are counter loops among them. -/
theorem updates_tickAll (loops : List Loop) (d : Device) :
    updates (tickAll loops d).events = loops.countP fun l => l.task = .counter := by
  induction loops generalizing d with
  | nil => rfl
  | cons l loops ih =>
    have hevents : (tickAll (l :: loops) d).events =
        (l.task.tick d).events ++ (tickAll loops (l.task.tick d).state).events := rfl
    rw [hevents, updates_append, ih, List.countP_cons, Nat.add_comm]
    cases htask : l.task with
    | counter =>
      have hone : updates (Task.counter.tick d).events = 1 := d.updates_increment
      rw [hone]
      rfl
    | health => rfl

theorem updated_tickAll {s : DeviceSettings} {n : Nat} {d : Device} (h : d.Updated s n)
    (loops : List Loop) :
    (tickAll loops d).state.Updated s (n + updates (tickAll loops d).events) := by
  induction loops generalizing d n with
  | nil => exact h
  | cons l loops ih =>
    have htick : (l.task.tick d).state.Updated s (n + updates (l.task.tick d).events) := by
      cases l.task with
      | counter =>
        have hone : updates (Task.counter.tick d).events = 1 := d.updates_increment
        rw [hone]
        exact h.increment
      | health => exact h
    have hrest := ih htick
    rw [Nat.add_assoc, ← updates_append] at hrest
    exact hrest

/-- The loops that tick at an instant are those that are due then, in whatever order. -/
theorem countP_due (now : Nat) (loops : List Loop) (task : Task) :
    (due now loops).countP (fun l => l.task = task) =
      loops.countP fun l => l.IsDue now ∧ l.task = task := by
  rw [due, (List.mergeSort_perm _ _).countP_eq, List.countP_filter]
  refine List.countP_congr ?_
  intro l _
  simp only [decide_eq_true_eq, Bool.and_eq_true]
  exact and_comm

theorem firstTick?_eq_none {limit : Nat} {loops : List Loop} (h : firstTick? limit loops = none)
    {l : Loop} (hl : l ∈ loops) (hperiod : 0 < l.period) : limit ≤ l.next := by
  rw [firstTick?, List.min?_eq_none_iff, List.filterMap_eq_nil_iff] at h
  have hnone := h l hl
  split at hnone
  · cases hnone
  · rename_i hnot
    exact Nat.not_lt.mp fun hlt => hnot ⟨hperiod, hlt⟩

theorem firstTick?_eq_some {limit instant : Nat} {loops : List Loop}
    (h : firstTick? limit loops = some instant) :
    (∃ l ∈ loops, 0 < l.period ∧ l.next = instant) ∧ instant < limit ∧
      ∀ l ∈ loops, 0 < l.period → instant ≤ l.next := by
  have hlt : instant < limit ∧ ∃ l ∈ loops, 0 < l.period ∧ l.next = instant := by
    rcases List.mem_filterMap.mp (List.min?_mem h) with ⟨l, hl, hnext⟩
    split at hnext
    · rename_i hticks
      cases hnext
      exact ⟨hticks.2, l, hl, hticks.1, rfl⟩
    · cases hnext
  refine ⟨hlt.2, hlt.1, ?_⟩
  intro l hl hperiod
  -- A loop that does not tick before the limit does not tick before the first either.
  by_cases hbefore : l.next < limit
  · have hmem : l.next ∈ loops.filterMap fun l =>
        if 0 < l.period ∧ l.next < limit then some l.next else none :=
      List.mem_filterMap.mpr ⟨l, hl, if_pos ⟨hperiod, hbefore⟩⟩
    exact (List.min?_eq_some_iff.mp h).2 _ hmem
  · exact Nat.le_trans (Nat.le_of_lt hlt.1) (Nat.not_lt.mp hbefore)

end Loop

end Fieldbus
