import Fieldbus.Device.Operation

/-!
# Periodic loops

A running device has two loops: one advances the live counter, the other reports the statistics.  A
loop ticks one period after it was spawned and then once per period.  A loop without a period never
ticks: it fails when it takes its first turn.
-/

namespace Fieldbus

/-- What a loop does when it ticks. -/
inductive Task where
  | counter
  | health
  deriving DecidableEq, Repr

namespace Task

/-- One tick on a device. -/
def tick (task : Task) (d : Device) : Outcome Device Unit :=
  match task with
  | .counter => d.increment.map fun _ => ()
  | .health =>
    let s := d.statistics
    { answer := ()
      state := d
      events :=
        [.healthChecked s.requests s.errors s.identityErrors s.addressErrors d.counter] }

/-- The report of a loop that takes its first turn. -/
def startEvents (period : Nat) : Task → List Event
  | .counter => [.counterLoopStarted period]
  | .health => []

/-- The report of a loop that ends. -/
def stopEvent : Task → Event
  | .counter => .counterLoopStopping
  | .health => .healthLoopStopping

end Task

/-- A loop that was spawned and has not ended: the instant of its next tick, and whether it has
taken a turn yet. -/
structure Loop where
  task : Task
  period : Nat
  next : Nat
  begun : Bool := false
  deriving DecidableEq, Repr

namespace Loop

/-- A loop that is spawned at the instant `now`. -/
def spawn (task : Task) (period now : Nat) : Loop :=
  { task, period, next := now + period }

/-- The loop ticks at the instant `now`. -/
def IsDue (now : Nat) (l : Loop) : Prop :=
  0 < l.period ∧ l.next ≤ now

instance (now : Nat) (l : Loop) : Decidable (l.IsDue now) :=
  inferInstanceAs (Decidable (_ ∧ _))

/-- The loop after it ticked at the instant `now`. -/
def ticked (now : Nat) (l : Loop) : Loop :=
  { l with next := now + l.period }

/-- The loops after all that are due at the instant `now` have ticked. -/
def advance (now : Nat) (loops : List Loop) : List Loop :=
  loops.map fun l => if l.IsDue now then l.ticked now else l

/-- The loops that are due at the instant `now`, in the order in which they tick: the one that has
waited longest first. -/
def due (now : Nat) (loops : List Loop) : List Loop :=
  (loops.filter fun l => l.IsDue now).mergeSort fun l m => l.next - l.period ≤ m.next - m.period

/-- Loops tick on a device one after the other. -/
def tickAll : List Loop → Device → Outcome Device Unit
  | [], d => { answer := (), state := d }
  | l :: loops, d => (l.task.tick d).andThen fun _ => tickAll loops

/-- The instant of the earliest tick before `limit`, if there is one. -/
def firstTick? (limit : Nat) (loops : List Loop) : Option Nat :=
  (loops.filterMap fun l => if 0 < l.period ∧ l.next < limit then some l.next else none).min?

/-- How far the next tick of the loop is from `limit`. -/
def distance (limit : Nat) (l : Loop) : Nat :=
  if 0 < l.period then limit - l.next else 0

/-- How far the next ticks of loops are from `limit` altogether. -/
def totalDistance (limit : Nat) (loops : List Loop) : Nat :=
  loops.foldr (fun l sum => distance limit l + sum) 0

theorem totalDistance_append (limit : Nat) (before after : List Loop) :
    totalDistance limit (before ++ after) =
      totalDistance limit before + totalDistance limit after := by
  induction before with
  | nil => simp [totalDistance]
  | cons l before ih =>
    simp only [totalDistance, List.cons_append, List.foldr_cons] at ih ⊢
    omega

theorem distance_advance_le (limit now : Nat) (loops : List Loop) :
    totalDistance limit (advance now loops) ≤ totalDistance limit loops := by
  induction loops with
  | nil => exact Nat.le_refl _
  | cons l loops ih =>
    refine Nat.add_le_add ?_ ih
    by_cases h : l.IsDue now
    · have := h.2
      simp only [h, if_true, distance, ticked]
      split <;> omega
    · simp [h]

/-- Time has moved on once the loops that tick first have ticked. -/
theorem distance_advance_lt {limit now : Nat} {loops : List Loop}
    (h : firstTick? limit loops = some now) :
    totalDistance limit (advance now loops) < totalDistance limit loops := by
  obtain ⟨l, hl, hnext⟩ := List.mem_filterMap.mp (List.min?_mem h)
  split at hnext
  · rename_i hticks
    obtain ⟨hperiod, hlimit⟩ := hticks
    cases hnext
    have hstep : distance limit (l.ticked l.next) < distance limit l := by
      simp only [distance, ticked, hperiod, if_true]
      omega
    have hdue : l.IsDue l.next := ⟨hperiod, Nat.le_refl _⟩
    obtain ⟨before, after, rfl⟩ := List.append_of_mem hl
    have hbefore := distance_advance_le limit l.next before
    have hafter := distance_advance_le limit l.next after
    simp only [advance, List.map_append, List.map_cons, hdue, if_true, totalDistance_append]
      at hbefore hafter ⊢
    simp only [totalDistance, List.foldr_cons] at hbefore hafter ⊢
    omega
  · cases hnext

end Loop

end Fieldbus
