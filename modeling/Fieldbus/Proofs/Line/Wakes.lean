import Fieldbus.Proofs.Line.Waits

/-!
# What ends the wait of a read

A read that waits is woken by the first event of the schedule that makes a difference to it: by a
write that brings bytes, by the end of the writing, or by the shutdown token.  `wake?` finds that
event, `await_of_wake` says that a wait with the event before its limit ends at that event, and
`await_of_quiet` that a wait without one is in vain.
-/

namespace Fieldbus

/-- The first event that makes a difference to a read that waits, and the events behind it.  A write
of nothing makes none; a write into a pipe that can hold nothing never gets on. -/
def PeerEvent.wake? (capacity : Nat) : List PeerEvent → Option (PeerEvent × List PeerEvent)
  | [] => none
  | e :: later =>
    match e.action with
    | .write [] => wake? capacity later
    | .write (_ :: _) => if capacity = 0 then none else some (e, later)
    | .close | .cancel | .drop => some (e, later)

/-- The bytes that are there once an action has woken a read: as many as the pipe can hold. -/
def PeerAction.heard (capacity : Nat) : PeerAction → List UInt8
  | .write bytes => bytes.take capacity
  | .close | .cancel | .drop => []

namespace Line

open PeerEvent (Begun Continues InOrder stream wake?)

variable {line line' : Line} {events schedule behind : List PeerEvent} {got : List UInt8}
  {ready : Line → Bool} {instants : List Nat} {e : PeerEvent} {n : Nat}

/-- There is nothing to read, and there may be later. -/
structure Waiting (line : Line) : Prop where
  fired : line.fired = false
  held : line.inbound.held = []
  closed : line.inbound.closed = false

/-- Nothing happens at the instant apart from the event: no event behind it is due as well, unless a
write that does not fit holds it up. -/
def Alone (capacity instant : Nat) (e : PeerEvent) (behind : List PeerEvent) : Prop :=
  (∃ bytes, e.action = .write bytes ∧ capacity < bytes.length) ∨
    ∀ e' ∈ behind, instant < e'.instant

theorem Alone.clear {capacity instant : Nat} (h : Alone capacity instant e behind)
    (hfits : ∀ bytes, e.action = .write bytes → bytes.length ≤ capacity) :
    ∀ e' ∈ behind, instant < e'.instant := by
  refine h.resolve_left ?_
  rintro ⟨bytes, haction, hlong⟩
  exact absurd (hfits bytes haction) (Nat.not_le.mpr hlong)

theorem wake?_mem {capacity : Nat} (h : wake? capacity schedule = some (e, behind)) :
    e ∈ schedule := by
  induction schedule with
  | nil => cases h
  | cons first later ih =>
    unfold wake? at h
    split at h
    · exact List.mem_cons_of_mem _ (ih h)
    · split at h
      · cases h
      · cases h
        exact List.mem_cons_self
    · cases h
      exact List.mem_cons_self
    · cases h
      exact List.mem_cons_self
    · cases h
      exact List.mem_cons_self

/-! ## Turns while a read waits -/

theorem Waiting.room_eq (h : Waiting line) : line.inbound.room = line.inbound.capacity := by
  rw [Pipe.room, h.held]
  rfl

theorem Waiting.act_write (h : Waiting line) (bytes : List UInt8) :
    line.act (.write bytes) =
      ({ line with inbound := { line.inbound with held := bytes.take line.inbound.capacity } },
        bytes.drop line.inbound.capacity) := by
  have hopen : ¬ line.inbound.closed = true := by simp [h.closed]
  rw [act, if_neg hopen, Pipe.push, h.room_eq, h.held, List.nil_append]

/-- Nothing that makes a difference is due: the read waits on, for the same event. -/
theorem go_quiet (h : Waiting line) (hopen : line.outbound.closed = false)
    (hquiet : ∀ e behind, wake? line.inbound.capacity schedule = some (e, behind) →
      line.now < e.instant) :
    let line' := peerTurn.go line schedule
    Waiting line' ∧
      wake? line.inbound.capacity line'.schedule = wake? line.inbound.capacity schedule := by
  induction schedule generalizing line with
  | nil =>
    have hdrain : peerTurn.go line [] =
        { line with
          schedule := []
          received := line.received ++ line.outbound.held
          outbound := line.outbound.drained } := by
      simp [peerTurn.go, drain, hopen]
    rw [hdrain]
    exact ⟨⟨h.fired, h.held, h.closed⟩, rfl⟩
  | cons e later ih =>
    by_cases hdue : e.instant ≤ line.now
    · rcases e with ⟨instant, action⟩
      cases action with
      | write bytes =>
        have hact := h.act_write bytes
        cases bytes with
        | nil =>
          rw [List.take_nil, List.drop_nil] at hact
          rw [go_done hdue hact]
          exact ih ⟨h.fired, rfl, h.closed⟩ hopen hquiet
        | cons b rest =>
          by_cases hcapacity : line.inbound.capacity = 0
          · -- The pipe can hold nothing, and the write stays at the head of the schedule.
            rw [hcapacity, List.take_zero, List.drop_zero] at hact
            rw [go_held hdue hact]
            exact ⟨⟨h.fired, rfl, h.closed⟩, rfl⟩
          · have := hquiet ⟨instant, .write (b :: rest)⟩ later (by simp [wake?, hcapacity])
            exact absurd hdue (Nat.not_le.mpr this)
      | close | cancel | drop => exact absurd hdue (Nat.not_le.mpr (hquiet _ later rfl))
    · rw [go_ahead (Nat.lt_of_not_le hdue)]
      exact ⟨⟨h.fired, h.held, h.closed⟩, rfl⟩

/-- Reading what is there answers the bytes, or nothing because there will be none. -/
structure Woken (line : Line) (bytes : List UInt8) : Prop where
  ready : ¬ Waiting line
  answer : ∀ n, (line.take n).1 = .read (bytes.take n)

theorem woken_of_fired (h : line.fired = true) : Woken line [] := by
  refine ⟨?_, ?_⟩
  · intro hwaiting
    cases h.symm.trans hwaiting.fired
  · intro n
    rw [take, if_pos h, List.take_nil]

theorem woken_of_held {bytes : List UInt8} (hfired : line.fired = false)
    (hheld : line.inbound.held = bytes) (hready : bytes = [] → line.inbound.closed = true) :
    Woken line bytes := by
  refine ⟨?_, ?_⟩
  · intro hwaiting
    have hclosed := hready (hheld.symm.trans hwaiting.held)
    cases hclosed.symm.trans hwaiting.closed
  · intro n
    have hnot : ¬ line.fired = true := by simp [hfired]
    rw [take, if_neg hnot, ← hheld]
    rfl

/-- Nothing else is due: what the last action has done stands. -/
theorem go_rest (h : ∀ e ∈ schedule, line.now < e.instant) :
    (peerTurn.go line schedule).fired = line.fired ∧
      (peerTurn.go line schedule).inbound.held = line.inbound.held ∧
      (line.inbound.closed = true → (peerTurn.go line schedule).inbound.closed = true) := by
  cases schedule with
  | nil =>
    rw [peerTurn.go]
    unfold drain
    split
    · exact ⟨rfl, rfl, fun _ => rfl⟩
    · exact ⟨rfl, rfl, id⟩
  | cons e later =>
    rw [go_ahead (h e List.mem_cons_self)]
    exact ⟨rfl, rfl, id⟩

/-- Nothing but the first event is due. -/
theorem go_last (hdue : e.instant ≤ line.now) (hact : line.act e.action = (line', []))
    (hclear : ∀ e' ∈ behind, line'.now < e'.instant) :
    (peerTurn.go line (e :: behind)).fired = line'.fired ∧
      (peerTurn.go line (e :: behind)).inbound.held = line'.inbound.held ∧
      (line'.inbound.closed = true → (peerTurn.go line (e :: behind)).inbound.closed = true) := by
  rw [go_done hdue hact]
  exact go_rest hclear

/-- The event that makes a difference is due, and nothing else with it. -/
theorem go_woken (h : Waiting line) (horder : InOrder schedule)
    (hwake : wake? line.inbound.capacity schedule = some (e, behind)) (hdue : e.instant ≤ line.now)
    (halone : Alone line.inbound.capacity line.now e behind) :
    Woken (peerTurn.go line schedule) (e.action.heard line.inbound.capacity) := by
  induction schedule generalizing line with
  | nil => cases hwake
  | cons first later ih =>
    -- What stands in front of the event is due as well.
    have hfirst : first.instant ≤ line.now := by
      rcases List.mem_cons.mp (wake?_mem hwake) with rfl | hmem
      · exact hdue
      · exact Nat.le_trans (Nat.le_of_lt ((List.pairwise_cons.mp horder).1 e hmem)) hdue
    rcases first with ⟨instant, action⟩
    cases action with
    | write bytes =>
      have hact := h.act_write bytes
      cases bytes with
      | nil =>
        rw [List.take_nil, List.drop_nil] at hact
        rw [go_done hfirst hact]
        exact ih ⟨h.fired, rfl, h.closed⟩ (List.pairwise_cons.mp horder).2 hwake hdue halone
      | cons b rest =>
        by_cases hcapacity : line.inbound.capacity = 0
        · simp [wake?, hcapacity] at hwake
        · have hsame : ⟨instant, .write (b :: rest)⟩ = e ∧ later = behind := by
            simpa [wake?, hcapacity] using hwake
          rcases hsame with ⟨rfl, rfl⟩
          have hheard : (b :: rest).take line.inbound.capacity ≠ [] := by
            simp [hcapacity]
          -- A write that fits lets the turn go on, and one that does not ends it.
          cases hleft : (b :: rest).drop line.inbound.capacity with
          | nil =>
            rw [hleft] at hact
            have hclear : ∀ e' ∈ later, line.now < e'.instant := by
              refine halone.clear ?_
              rintro bytes ⟨⟩
              exact List.drop_eq_nil_iff.mp hleft
            rcases go_last hfirst hact hclear with ⟨hfired, hheld, -⟩
            exact woken_of_held (hfired.trans h.fired) hheld fun hnone => absurd hnone hheard
          | cons b' rest' =>
            rw [hleft] at hact
            rw [go_held hfirst hact]
            exact woken_of_held h.fired rfl fun hnone => absurd hnone hheard
    | close =>
      cases hwake
      have hclear := halone.clear fun bytes h => nomatch h
      have hact : line.act .close = ({ line with inbound := line.inbound.close }, []) := rfl
      rcases go_last hfirst hact hclear with ⟨hfired, hheld, hclosed⟩
      exact woken_of_held (hfired.trans h.fired) (hheld.trans h.held) fun _ => hclosed rfl
    | cancel =>
      cases hwake
      have hclear := halone.clear fun bytes h => nomatch h
      have hact : line.act .cancel = ({ line with fired := true }, []) := rfl
      exact woken_of_fired (go_last hfirst hact hclear).1
    | drop =>
      cases hwake
      have hclear := halone.clear fun bytes h => nomatch h
      have hact : line.act .drop = ({ line with
          inbound := line.inbound.close, outbound := line.outbound.close.drained }, []) := rfl
      rcases go_last hfirst hact hclear with ⟨hfired, hheld, hclosed⟩
      exact woken_of_held (hfired.trans h.fired) (hheld.trans h.held) fun _ => hclosed rfl

/-! ## The wait -/

theorem Waiting.open_of_follows (h : Waiting line) (hfollows : Follows events got line) :
    line.outbound.closed = false := by
  rcases hfollows with ⟨past, haccount⟩
  refine Bool.eq_false_iff.mpr ?_
  intro hclosed
  cases (haccount.linked hclosed).symm.trans h.closed

theorem Waiting.now (h : Waiting line) (instant : Nat) : Waiting { line with now := instant } :=
  ⟨h.fired, h.held, h.closed⟩

section

variable {capacity limit : Nat} (hready : ∀ line, ready line = true ↔ ¬ Waiting line)
include hready

/-- A turn in which nothing makes a difference. -/
theorem turn_quiet (hcapacity : line.inbound.capacity = capacity) (h : Waiting line)
    (hfollows : Follows events got line)
    (hquiet : ∀ e behind, wake? capacity line.schedule = some (e, behind) →
      line.now < e.instant) :
    ready line.peerTurn = false ∧ Waiting line.peerTurn ∧
      wake? capacity line.peerTurn.schedule = wake? capacity line.schedule := by
  subst hcapacity
  rcases go_quiet h (h.open_of_follows hfollows) hquiet with ⟨hwaiting, hsame⟩
  exact ⟨Bool.eq_false_iff.mpr fun hturned => (hready _).mp hturned hwaiting, hwaiting, hsame⟩

/-- A turn in which the next event makes a difference. -/
theorem turn_woken (hcapacity : line.inbound.capacity = capacity) (h : Waiting line)
    (horder : InOrder line.schedule) (hwake : wake? capacity line.schedule = some (e, behind))
    (hdue : e.instant ≤ line.now) (halone : Alone capacity line.now e behind) :
    ready line.peerTurn = true ∧ Woken line.peerTurn (e.action.heard capacity) := by
  subst hcapacity
  have hwoken := go_woken h horder hwake hdue halone
  exact ⟨(hready _).mpr hwoken.ready, hwoken⟩

/-- With the next event before the limit, the wait ends at the event. -/
theorem await_of_wake (hevents : InOrder events) (hcapacity : line.inbound.capacity = capacity)
    (h : Waiting line) (hfollows : Follows events got line) (hahead : Ahead line instants)
    (hcovers : Covers line (some limit) instants)
    (hwake : wake? capacity line.schedule = some (e, behind)) (hlimit : e.instant < limit)
    (halone : Alone capacity (max line.now e.instant) e behind) :
    (line.await ready instants).1 = true ∧
      (line.await ready instants).2.now = max line.now e.instant ∧
      Woken (line.await ready instants).2 (e.action.heard capacity) := by
  have hnext : line.now < e.instant → e.instant ∈ instants := by
    intro hnow
    refine hcovers e (wake?_mem hwake) hnow ?_
    rintro l ⟨⟩
    exact hlimit
  induction instants generalizing line with
  | nil =>
    have hdue : e.instant ≤ line.now :=
      Nat.le_of_not_lt fun hnow => List.not_mem_nil (hnext hnow)
    rw [Nat.max_eq_left hdue] at halone ⊢
    have hturn := turn_woken hready hcapacity h (hfollows.inOrder hevents) hwake hdue halone
    exact ⟨hturn.1, (kept_peerTurn line).now_eq, hturn.2⟩
  | cons t instants ih =>
    rw [await]
    by_cases hdue : e.instant ≤ line.now
    · rw [Nat.max_eq_left hdue] at halone ⊢
      have hturn := turn_woken hready hcapacity h (hfollows.inOrder hevents) hwake hdue halone
      rw [if_pos hturn.1]
      exact ⟨rfl, (kept_peerTurn line).now_eq, hturn.2⟩
    · have hnow : line.now < e.instant := Nat.lt_of_not_le hdue
      have hquiet : ∀ e' behind', wake? capacity line.schedule = some (e', behind') →
          line.now < e'.instant := by
        intro e' behind' hwake'
        cases hwake.symm.trans hwake'
        exact hnow
      rcases turn_quiet hready hcapacity h hfollows hquiet with ⟨hturned, hwaiting, hsame⟩
      have hlt := hahead.turn.lt
      -- The next instant ahead is no later than the event.
      have ht : t ≤ e.instant := by
        rcases List.mem_cons.mp (hnext hnow) with hsame | hmem
        · exact Nat.le_of_eq hsame.symm
        · exact Nat.le_of_lt ((List.pairwise_cons.mp (List.pairwise_cons.mp hahead).2).1 _ hmem)
      have hmax : max t e.instant = max line.now e.instant := by
        rw [Nat.max_eq_right (Nat.le_of_lt hnow), Nat.max_eq_right ht]
      have hrest : t < e.instant → e.instant ∈ instants := by
        intro hlater
        exact (List.mem_cons.mp (hnext hnow)).resolve_left (Nat.ne_of_gt hlater)
      rw [if_neg (Bool.eq_false_iff.mp hturned), ← hmax]
      exact ih ((kept_peerTurn line).capacity_eq.trans hcapacity) (hwaiting.now t)
        (hfollows.peerTurn.now (Nat.le_of_lt hlt)) (hahead.turn.next line.peerTurn)
        (hcovers.turn.next hlt) (hsame.trans hwake) (hmax.symm ▸ halone) hrest

/-- Without an event before the limit, the wait is in vain. -/
theorem await_of_quiet (hcapacity : line.inbound.capacity = capacity) (h : Waiting line)
    (hfollows : Follows events got line) (hahead : Ahead line instants) (hnow : line.now < limit)
    (hinstants : ∀ t ∈ instants, t < limit)
    (hquiet : ∀ e behind, wake? capacity line.schedule = some (e, behind) → limit ≤ e.instant) :
    (line.await ready instants).1 = false := by
  induction instants generalizing line with
  | nil =>
    exact (turn_quiet hready hcapacity h hfollows fun e behind hwake =>
      Nat.lt_of_lt_of_le hnow (hquiet e behind hwake)).1
  | cons t instants ih =>
    rcases turn_quiet hready hcapacity h hfollows fun e behind hwake =>
      Nat.lt_of_lt_of_le hnow (hquiet e behind hwake) with ⟨hturned, hwaiting, hsame⟩
    have hlt := hahead.turn.lt
    rw [await, if_neg (Bool.eq_false_iff.mp hturned)]
    refine ih ((kept_peerTurn line).capacity_eq.trans hcapacity) (hwaiting.now t)
      (hfollows.peerTurn.now (Nat.le_of_lt hlt)) (hahead.turn.next line.peerTurn)
      (hinstants t List.mem_cons_self) (fun t' ht' => hinstants t' (List.mem_cons_of_mem _ ht')) ?_
    intro e behind hwake
    exact hquiet e behind (hsame.symm.trans hwake)

end

end Line

end Fieldbus
