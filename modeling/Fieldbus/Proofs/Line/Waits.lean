import Fieldbus.Proofs.Line.Turns

/-!
# Waiting for the far end

While the near end waits, the far end takes a turn now and at every instant ahead at which it has
something to do.  Nothing that is due is left behind by that (`Line.Punctual`), and nothing but the
far end and the clock has moved (`Line.Lasts`).
-/

namespace Fieldbus

namespace Line

open PeerEvent (Begun Continues InOrder stream)

variable {line line' : Line} {events schedule : List PeerEvent} {got : List UInt8}
  {ready : Line → Bool} {instants : List Nat} {limit : Option Nat}

/-! ## The clock -/

/-- Time has passed, and the far end may have taken turns. -/
structure Lasts (line line' : Line) : Prop where
  idleTimeout_eq : line'.idleTimeout = line.idleTimeout
  deadline_eq : line'.deadline = line.deadline
  now_le : line.now ≤ line'.now
  capacity_eq : line'.inbound.capacity = line.inbound.capacity

theorem Lasts.refl (line : Line) : Lasts line line :=
  ⟨rfl, rfl, Nat.le_refl _, rfl⟩

theorem Lasts.trans {line'' : Line} (h : Lasts line line') (h' : Lasts line' line'') :
    Lasts line line'' :=
  ⟨h'.idleTimeout_eq.trans h.idleTimeout_eq, h'.deadline_eq.trans h.deadline_eq,
    Nat.le_trans h.now_le h'.now_le, h'.capacity_eq.trans h.capacity_eq⟩

theorem Kept.lasts (h : Kept line line') : Lasts line line' :=
  ⟨h.idleTimeout_eq, h.deadline_eq, Nat.le_of_eq h.now_eq.symm, h.capacity_eq⟩

theorem lasts_now {instant : Nat} (h : line.now ≤ instant) :
    Lasts line { line with now := instant } :=
  ⟨rfl, rfl, h, rfl⟩

theorem Follows.now {instant : Nat} (h : Follows events got line) (hnow : line.now ≤ instant) :
    Follows events got { line with now := instant } := by
  rcases h with ⟨past, h⟩
  refine ⟨past, h.linked, h.continues, h.fired_iff, h.closed_iff, ?_, h.stream_eq⟩
  intro e he
  exact Nat.le_trans (h.instant_le e he) hnow

theorem Follows.inOrder (h : Follows events got line) (horder : InOrder events) :
    InOrder line.schedule := by
  rcases h with ⟨past, h⟩
  exact h.continues.inOrder horder

/-! ## The instants ahead -/

/-- Instants at which the far end can be given a turn, from now on. -/
def Ahead (line : Line) (instants : List Nat) : Prop :=
  (line.now :: instants).Pairwise (· < ·)

/-- No event before `limit` is left out. -/
def Covers (line : Line) (limit : Option Nat) (instants : List Nat) : Prop :=
  ∀ e ∈ line.schedule, line.now < e.instant → (∀ l ∈ limit, e.instant < l) → e.instant ∈ instants

theorem ahead_instants (h : InOrder line.schedule) (limit : Option Nat) :
    Ahead line (line.instants limit) := by
  refine List.pairwise_cons.mpr ⟨?_, ?_⟩
  · intro t ht
    exact (of_decide_eq_true (List.mem_filter.mp ht).2).1
  · exact (List.pairwise_map.mpr h).sublist List.filter_sublist

theorem covers_instants (line : Line) (limit : Option Nat) :
    Covers line limit (line.instants limit) := by
  intro e he hnow hlimit
  exact List.mem_filter.mpr ⟨List.mem_map.mpr ⟨e, he, rfl⟩, decide_eq_true ⟨hnow, hlimit⟩⟩

theorem lt_of_mem_instants {t l : Nat} (h : t ∈ line.instants (some l)) : t < l :=
  (of_decide_eq_true (List.mem_filter.mp h).2).2 l rfl

theorem Ahead.turn (h : Ahead line instants) : Ahead line.peerTurn instants := by
  rw [Ahead, (kept_peerTurn line).now_eq]
  exact h

theorem Ahead.next {t : Nat} (h : Ahead line (t :: instants)) (line' : Line) :
    Ahead { line' with now := t } instants :=
  (List.pairwise_cons.mp h).2

theorem Ahead.lt {t : Nat} (h : Ahead line (t :: instants)) : line.now < t :=
  (List.pairwise_cons.mp h).1 t List.mem_cons_self

/-- A turn puts nothing off. -/
theorem instant_of_mem_peerTurn (line : Line) :
    ∀ e ∈ line.peerTurn.schedule, ∃ e' ∈ line.schedule, e'.instant = e.instant := by
  have hstart : ∀ e ∈ line.schedule, ∃ e' ∈ line.schedule, e'.instant = e.instant :=
    fun e he => ⟨e, he, rfl⟩
  refine go_induct
    (P := fun _ schedule => ∀ e ∈ schedule, ∃ e' ∈ line.schedule, e'.instant = e.instant)
    ?_ ?_ ?_ ?_ hstart
  · exact fun _ _ _ h => h
  · exact fun _ _ _ _ h _ _ e he => h e (List.mem_cons_of_mem _ he)
  · intro _ _ e later rest h _ _ e' he'
    rcases List.mem_cons.mp he' with rfl | he'
    · exact h e List.mem_cons_self
    · exact h e' (List.mem_cons_of_mem _ he')
  · exact fun _ h => h

theorem Covers.turn (h : Covers line limit instants) : Covers line.peerTurn limit instants := by
  intro e he hnow hlimit
  rcases instant_of_mem_peerTurn line e he with ⟨e', he', hsame⟩
  rw [(kept_peerTurn line).now_eq] at hnow
  rw [← hsame] at hnow hlimit ⊢
  exact h e' he' hnow hlimit

theorem Covers.next {t : Nat} (h : Covers line limit (t :: instants)) (ht : line.now < t) :
    Covers { line with now := t } limit instants := by
  intro e he hnow hlimit
  have hmem := h e he (Nat.lt_trans ht hnow) hlimit
  rcases List.mem_cons.mp hmem with hsame | hmem
  · exact absurd hsame (Nat.ne_of_gt hnow)
  · exact hmem

/-! ## Waits -/

/-- What turns and the clock keep, a wait keeps. -/
theorem await_induct {P : Line → Prop} (hturn : ∀ line, P line → P line.peerTurn)
    (hnow : ∀ line t, P line → line.now ≤ t → P { line with now := t })
    (hahead : Ahead line instants) (h : P line) : P (line.await ready instants).2 := by
  induction instants generalizing line with
  | nil => exact hturn line h
  | cons t instants ih =>
    have hturned := hturn line h
    rw [await]
    split
    · exact hturned
    · refine ih (hahead.turn.next line.peerTurn) (hnow _ t hturned ?_)
      exact Nat.le_of_lt hahead.turn.lt

theorem lasts_await (hahead : Ahead line instants) :
    Lasts line (line.await ready instants).2 := by
  refine await_induct (P := Lasts line) ?_ ?_ hahead (.refl line)
  · exact fun line' h => h.trans (kept_peerTurn line').lasts
  · exact fun line' t h ht => h.trans (lasts_now ht)

theorem Follows.await (h : Follows events got line) (hahead : Ahead line instants) :
    Follows events got (line.await ready instants).2 :=
  await_induct (P := Follows events got) (fun _ h => h.peerTurn) (fun _ _ h ht => h.now ht) hahead h

theorem turned_await (line : Line) (ready : Line → Bool) (instants : List Nat) :
    Turned (line.await ready instants).2 := by
  induction instants generalizing line with
  | nil => exact turned_go line line.schedule
  | cons t instants ih =>
    rw [await]
    split
    · exact turned_go line line.schedule
    · exact ih _

/-- A wait in vain is over at the last of the instants ahead. -/
theorem await_in_vain (hahead : Ahead line instants) (hcovers : Covers line limit instants)
    (hvain : (line.await ready instants).1 = false) :
    Covers (line.await ready instants).2 limit [] := by
  induction instants generalizing line with
  | nil => exact hcovers.turn
  | cons t instants ih =>
    rw [await] at hvain ⊢
    split
    · rename_i hready
      rw [if_pos hready] at hvain
      cases hvain
    · rename_i hready
      rw [if_neg hready] at hvain
      exact ih (hahead.turn.next line.peerTurn) (hcovers.turn.next hahead.turn.lt) hvain

theorem now_await_lt {l : Nat} (hnow : line.now < l) (h : ∀ t ∈ instants, t < l) :
    (line.await ready instants).2.now < l := by
  induction instants generalizing line with
  | nil => exact (kept_peerTurn line).now_eq ▸ hnow
  | cons t instants ih =>
    rw [await]
    split
    · exact (kept_peerTurn line).now_eq ▸ hnow
    · exact ih (h t List.mem_cons_self) fun t' ht' => h t' (List.mem_cons_of_mem _ ht')

/-! ## Punctuality -/

/-- Whatever should have happened before now has happened, unless a write waits for room. -/
def Punctual (line : Line) : Prop :=
  ∀ e later, line.schedule = e :: later → e.instant < line.now →
    ∃ b rest, e.action = .write (b :: rest)

theorem Turned.punctual (h : Turned line) : Punctual line :=
  fun e later hschedule hlate => h e later hschedule (Nat.le_of_lt hlate)

/-- A line that has been waited on to the limit is punctual at the limit. -/
theorem Turned.punctual_limit {l : Nat} (h : Turned line) (hcovers : Covers line (some l) []) :
    Punctual { line with now := l } := by
  intro e later hschedule hlate
  refine h e later hschedule (Nat.le_of_not_lt ?_)
  intro hnow
  have hmem : e ∈ line.schedule := hschedule ▸ List.mem_cons_self
  have hlimit : ∀ l' ∈ some l, e.instant < l' := by
    rintro l' ⟨⟩
    exact hlate
  exact absurd (hcovers e hmem hnow hlimit) List.not_mem_nil

end Line

end Fieldbus
