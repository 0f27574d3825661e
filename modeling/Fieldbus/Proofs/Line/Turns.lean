import Fieldbus.Line.Basic

/-!
# Turns of the far end

A turn carries out the actions that are due, one after the other.  What every action keeps a turn
keeps too (`go_induct`).  `Account` relates a line to the schedule that it began with: which events
are past, what they have done to the line, and where the bytes are that the far end writes.
-/

namespace Fieldbus

/-- The bytes that a schedule writes before it ends the writing. -/
def PeerEvent.stream : List PeerEvent → List UInt8
  | [] => []
  | e :: later =>
    match e.action with
    | .write bytes => bytes ++ stream later
    | .cancel => stream later
    | .close | .drop => []

/-- An event as it stood in the schedule, and as it stands there now: part of a write may be
done. -/
inductive PeerEvent.Begun : PeerEvent → PeerEvent → Prop
  | same (e : PeerEvent) : Begun e e
  | part (instant : Nat) (sent rest : List UInt8) :
      Begun ⟨instant, .write (sent ++ rest)⟩ ⟨instant, .write rest⟩

/-- What is left of a schedule after the events that are past. -/
def PeerEvent.Continues (events past : List PeerEvent) : List PeerEvent → Prop
  | [] => events = past
  | e :: later => ∃ first, Begun first e ∧ events = past ++ first :: later

/-- Events come in order, no two at the same instant. -/
def PeerEvent.InOrder (schedule : List PeerEvent) : Prop :=
  schedule.Pairwise (·.instant < ·.instant)

instance (schedule : List PeerEvent) : Decidable (PeerEvent.InOrder schedule) :=
  inferInstanceAs (Decidable (List.Pairwise ..))

namespace PeerEvent

variable {e first : PeerEvent} {events past later schedule : List PeerEvent}

namespace Begun

theorem instant_eq (h : Begun first e) : first.instant = e.instant := by
  cases h <;> rfl

theorem cancel_iff (h : Begun first e) : first.action = .cancel ↔ e.action = .cancel := by
  cases h with
  | same => exact Iff.rfl
  | part => exact ⟨fun h => (nomatch h), fun h => (nomatch h)⟩

theorem ends_iff (h : Begun first e) :
    first.action = .close ∨ first.action = .drop ↔ e.action = .close ∨ e.action = .drop := by
  cases h with
  | same => exact Iff.rfl
  | part =>
    refine ⟨?_, ?_⟩
    · rintro (h | h) <;> cases h
    · rintro (h | h) <;> cases h

/-- A write goes on with what is left of it. -/
theorem drop {instant : Nat} {bytes : List UInt8} (h : Begun first ⟨instant, .write bytes⟩)
    (count : Nat) : Begun first ⟨instant, .write (bytes.drop count)⟩ := by
  cases h with
  | same =>
    have hparts := Begun.part instant (bytes.take count) (bytes.drop count)
    rwa [List.take_append_drop] at hparts
  | part _ sent =>
    have hparts := Begun.part instant (sent ++ bytes.take count) (bytes.drop count)
    rwa [List.append_assoc, List.take_append_drop] at hparts

end Begun

namespace Continues

theorem refl (events : List PeerEvent) : Continues events [] events := by
  cases events with
  | nil => rfl
  | cons e later => exact ⟨e, .same e, rfl⟩

/-- The first event that is left has been done in full. -/
theorem next (hevents : events = past ++ first :: later) :
    Continues events (past ++ [first]) later := by
  have hsplit : events = (past ++ [first]) ++ later := by
    rw [hevents, List.append_assoc, List.singleton_append]
  cases later with
  | nil => rw [hsplit, List.append_nil]; rfl
  | cons e later => exact ⟨e, .same e, hsplit⟩

theorem inOrder (h : Continues events past schedule) (horder : InOrder events) :
    InOrder schedule := by
  cases schedule with
  | nil => exact List.Pairwise.nil
  | cons e later =>
    rcases h with ⟨first, hbegun, rfl⟩
    have hpending : InOrder (first :: later) := horder.sublist (List.sublist_append_right ..)
    rcases List.pairwise_cons.mp hpending with ⟨hfirst, hlater⟩
    exact List.pairwise_cons.mpr ⟨hbegun.instant_eq ▸ hfirst, hlater⟩

end Continues

end PeerEvent

namespace Line

open PeerEvent (Begun Continues InOrder stream)

variable {line line' : Line} {e : PeerEvent} {later schedule : List PeerEvent}

/-! ## One action -/

/-- What an action makes of a line, and what of it is left to be done. -/
inductive Acted (line : Line) : PeerAction → Line → List UInt8 → Prop
  | lost (bytes : List UInt8) (hclosed : line.inbound.closed = true) :
      Acted line (.write bytes) line []
  | write (bytes : List UInt8) (hopen : line.inbound.closed = false) :
      Acted line (.write bytes) { line with inbound := line.inbound.push bytes }
        (bytes.drop line.inbound.room)
  | close : Acted line .close { line with inbound := line.inbound.close } []
  | cancel : Acted line .cancel { line with fired := true } []
  | drop : Acted line .drop
      { line with inbound := line.inbound.close, outbound := line.outbound.close.drained } []

theorem acted (line : Line) (action : PeerAction) :
    Acted line action (line.act action).1 (line.act action).2 := by
  cases action with
  | write bytes =>
    cases hclosed : line.inbound.closed with
    | true =>
      have hact : line.act (.write bytes) = (line, []) := if_pos hclosed
      rw [hact]
      exact .lost bytes hclosed
    | false =>
      have hact : line.act (.write bytes) = ({ line with inbound := line.inbound.push bytes },
          bytes.drop line.inbound.room) := if_neg (by simp [hclosed])
      rw [hact]
      exact .write bytes hclosed
  | close => exact .close
  | cancel => exact .cancel
  | drop => exact .drop

namespace Acted

variable {action : PeerAction} {rest : List UInt8}

theorem fired_iff (h : Acted line action line' rest) :
    line'.fired = true ↔ line.fired = true ∨ action = .cancel := by
  cases h <;> simp

theorem closed_iff (h : Acted line action line' rest) :
    line'.inbound.closed = true ↔
      line.inbound.closed = true ∨ action = .close ∨ action = .drop := by
  cases h <;> simp [Pipe.push, Pipe.close]

theorem linked (h : Acted line action line' rest)
    (hline : line.outbound.closed = true → line.inbound.closed = true) :
    line'.outbound.closed = true → line'.inbound.closed = true := by
  cases h with
  | lost | write | cancel => exact hline
  | close | drop => exact fun _ => rfl

/-- The bytes of an action go into the pipe as far as they fit, unless no more are taken. -/
theorem stream_eq (instant : Nat) (later : List PeerEvent) (h : Acted line action line' rest) :
    line'.inbound.held ++ (if line'.inbound.closed then [] else rest ++ stream later) =
      line.inbound.held ++
        (if line.inbound.closed then [] else stream (⟨instant, action⟩ :: later)) := by
  cases h with
  | lost bytes hclosed => rw [if_pos hclosed, if_pos hclosed]
  | write bytes hopen =>
    simp only [hopen, Pipe.push, Bool.false_eq_true, if_false, stream]
    rw [List.append_assoc, ← List.append_assoc (bytes.take _), List.take_append_drop]
  | close | drop => simp [Pipe.close, stream]
  | cancel => rfl

end Acted

/-! ## One turn -/

theorem go_ahead (h : line.now < e.instant) :
    peerTurn.go line (e :: later) = { line with schedule := e :: later } := by
  rw [peerTurn.go, if_pos h]

theorem go_done (h : e.instant ≤ line.now) (hact : line.act e.action = (line', [])) :
    peerTurn.go line (e :: later) = peerTurn.go line' later := by
  rw [peerTurn.go, if_neg (Nat.not_lt.mpr h), hact]

theorem go_held {b : UInt8} {rest : List UInt8} (h : e.instant ≤ line.now)
    (hact : line.act e.action = (line', b :: rest)) :
    peerTurn.go line (e :: later) =
      { line' with schedule := { e with action := .write (b :: rest) } :: later } := by
  rw [peerTurn.go, if_neg (Nat.not_lt.mpr h), hact]

/-- What actions keep, done in full or begun, and what reading keeps, a turn keeps. -/
theorem go_induct {P : Line → List PeerEvent → Prop}
    (hput : ∀ line schedule events, P line events → P { line with schedule } events)
    (hdone : ∀ line line' e later, P line (e :: later) → e.instant ≤ line.now →
      Acted line e.action line' [] → P line' later)
    (hheld : ∀ line line' e later rest, P line (e :: later) → Acted line e.action line' rest →
      rest ≠ [] → P line' ({ e with action := .write rest } :: later))
    (hdrain : ∀ line, P line [] → P line.drain [])
    (h : P line schedule) :
    P (peerTurn.go line schedule) (peerTurn.go line schedule).schedule := by
  induction schedule generalizing line with
  | nil => exact hdrain _ (hput line [] [] h)
  | cons e later ih =>
    by_cases hdue : e.instant ≤ line.now
    · have hacted := line.acted e.action
      rcases hact : line.act e.action with ⟨line', rest⟩
      rw [hact] at hacted
      cases rest with
      | nil =>
        rw [go_done hdue hact]
        exact ih (hdone line line' e later h hdue hacted)
      | cons b rest =>
        rw [go_held hdue hact]
        exact hput _ _ _ (hheld line line' e later (b :: rest) h hacted (List.cons_ne_nil b rest))
    · rw [go_ahead (Nat.lt_of_not_le hdue)]
      exact hput _ _ _ h

/-- Nothing is due any more, unless a write waits for room. -/
def Turned (line : Line) : Prop :=
  ∀ e later, line.schedule = e :: later → e.instant ≤ line.now →
    ∃ b rest, e.action = .write (b :: rest)

/-! ## What a turn leaves alone -/

/-- The far end has not changed what belongs to the near end. -/
structure Kept (line line' : Line) : Prop where
  idleTimeout_eq : line'.idleTimeout = line.idleTimeout
  deadline_eq : line'.deadline = line.deadline
  now_eq : line'.now = line.now
  capacity_eq : line'.inbound.capacity = line.inbound.capacity

theorem Kept.refl (line : Line) : Kept line line :=
  ⟨rfl, rfl, rfl, rfl⟩

theorem Kept.trans {line'' : Line} (h : Kept line line') (h' : Kept line' line'') :
    Kept line line'' :=
  ⟨h'.idleTimeout_eq.trans h.idleTimeout_eq, h'.deadline_eq.trans h.deadline_eq,
    h'.now_eq.trans h.now_eq, h'.capacity_eq.trans h.capacity_eq⟩

theorem Acted.kept {action : PeerAction} {rest : List UInt8} (h : Acted line action line' rest) :
    Kept line line' := by
  cases h <;> exact ⟨rfl, rfl, rfl, rfl⟩

theorem kept_drain (line : Line) : Kept line line.drain := by
  unfold drain
  split
  · exact ⟨rfl, rfl, rfl, rfl⟩
  · exact ⟨rfl, rfl, rfl, rfl⟩

theorem kept_peerTurn (line : Line) : Kept line line.peerTurn := by
  refine go_induct (P := fun line' _ => Kept line line') ?_ ?_ ?_ ?_ (.refl line)
  · intro line' schedule events h
    exact ⟨h.idleTimeout_eq, h.deadline_eq, h.now_eq, h.capacity_eq⟩
  · intro line' line'' e later h _ hacted
    exact h.trans hacted.kept
  · intro line' line'' e later rest h hacted _
    exact h.trans hacted.kept
  · intro line' h
    exact h.trans (kept_drain line')

theorem turned_go (line : Line) (schedule : List PeerEvent) :
    Turned (peerTurn.go line schedule) := by
  induction schedule generalizing line with
  | nil =>
    intro e later hschedule
    cases hschedule
  | cons e later ih =>
    by_cases hdue : e.instant ≤ line.now
    · rcases hact : line.act e.action with ⟨line', rest⟩
      cases rest with
      | nil =>
        rw [go_done hdue hact]
        exact ih line'
      | cons b rest =>
        rw [go_held hdue hact]
        rintro e' later' ⟨⟩ _
        exact ⟨b, rest, rfl⟩
    · rw [go_ahead (Nat.lt_of_not_le hdue)]
      rintro e' later' ⟨⟩ hdue'
      exact absurd hdue' hdue

/-! ## Accounts -/

/-- Where a line has got to with its schedule: the events that are past, what they have done, and
where the bytes are that the far end writes, of which `got` have been read. -/
structure Account (events : List PeerEvent) (got : List UInt8) (past : List PeerEvent)
    (line : Line) (schedule : List PeerEvent) : Prop where
  linked : line.outbound.closed = true → line.inbound.closed = true
  continues : Continues events past schedule
  fired_iff : line.fired = true ↔ ∃ e ∈ past, e.action = .cancel
  closed_iff : line.inbound.closed = true ↔ ∃ e ∈ past, e.action = .close ∨ e.action = .drop
  instant_le : ∀ e ∈ past, e.instant ≤ line.now
  stream_eq : got ++ line.inbound.held ++
    (if line.inbound.closed then [] else stream schedule) = stream events

namespace Account

variable {events past : List PeerEvent} {got : List UInt8}

/-- What the events that are past have done, when there is one more of them. -/
theorem exists_append {p : PeerAction → Prop} (first : PeerEvent) :
    (∃ e ∈ past ++ [first], p e.action) ↔ (∃ e ∈ past, p e.action) ∨ p first.action := by
  refine ⟨?_, ?_⟩
  · rintro ⟨e, he, hp⟩
    rcases List.mem_append.mp he with he | he
    · exact Or.inl ⟨e, he, hp⟩
    · cases List.mem_singleton.mp he
      exact Or.inr hp
  · rintro (⟨e, he, hp⟩ | hp)
    · exact ⟨e, List.mem_append_left _ he, hp⟩
    · exact ⟨first, List.mem_append_right _ (List.mem_singleton_self first), hp⟩

theorem done (h : Account events got past line (e :: later)) (hdue : e.instant ≤ line.now)
    (hacted : Acted line e.action line' []) :
    ∃ past', Account events got past' line' later := by
  rcases h.continues with ⟨first, hbegun, hevents⟩
  refine ⟨past ++ [first], hacted.linked h.linked, .next hevents, ?_, ?_, ?_, ?_⟩
  · rw [hacted.fired_iff, exists_append first (p := (· = .cancel)), h.fired_iff, hbegun.cancel_iff]
  · rw [hacted.closed_iff, exists_append first (p := fun a => a = .close ∨ a = .drop),
      h.closed_iff, hbegun.ends_iff]
  · intro e' he'
    rw [hacted.kept.now_eq]
    rcases List.mem_append.mp he' with he' | he'
    · exact h.instant_le e' he'
    · cases List.mem_singleton.mp he'
      exact hbegun.instant_eq ▸ hdue
  · have hstream := hacted.stream_eq e.instant later
    rw [List.nil_append] at hstream
    rw [List.append_assoc, hstream, ← List.append_assoc]
    exact h.stream_eq

theorem held {rest : List UInt8} (h : Account events got past line (e :: later))
    (hacted : Acted line e.action line' rest) (hrest : rest ≠ []) :
    Account events got past line' ({ e with action := .write rest } :: later) := by
  rcases h.continues with ⟨first, hbegun, hevents⟩
  have hstream := hacted.stream_eq e.instant later
  rcases e with ⟨instant, action⟩
  cases hacted with
  | lost | close | cancel | drop => exact absurd rfl hrest
  | write bytes hopen =>
    refine ⟨h.linked, ⟨first, hbegun.drop _, hevents⟩, h.fired_iff, h.closed_iff, h.instant_le, ?_⟩
    rw [List.append_assoc]
    refine (congrArg (got ++ ·) hstream).trans ?_
    rw [← List.append_assoc]
    exact h.stream_eq

theorem drain (h : Account events got past line schedule) :
    Account events got past line.drain schedule := by
  have hinbound : line.drain.inbound = line.inbound := by
    unfold Line.drain
    split
    · rename_i hclosed
      have hclosed' := h.linked hclosed
      simp only [Pipe.close, ← hclosed']
    · rfl
  refine ⟨?_, h.continues, h.fired_iff, ?_, h.instant_le, ?_⟩
  · rw [hinbound]
    exact h.linked
  · rw [hinbound]
    exact h.closed_iff
  · rw [hinbound]
    exact h.stream_eq

end Account

/-- The line has got somewhere with its schedule. -/
def Follows (events : List PeerEvent) (got : List UInt8) (line : Line) : Prop :=
  ∃ past, Account events got past line line.schedule

theorem Follows.peerTurn {events : List PeerEvent} {got : List UInt8}
    (h : Follows events got line) : Follows events got line.peerTurn := by
  refine go_induct (P := fun line schedule => ∃ past, Account events got past line schedule)
    ?_ ?_ ?_ ?_ h
  · rintro line schedule remaining ⟨past, h⟩
    exact ⟨past, h.linked, h.continues, h.fired_iff, h.closed_iff, h.instant_le, h.stream_eq⟩
  · rintro line line' e later ⟨past, h⟩ hdue hacted
    exact h.done hdue hacted
  · rintro line line' e later rest ⟨past, h⟩ hacted hrest
    exact ⟨past, h.held hacted hrest⟩
  · rintro line ⟨past, h⟩
    exact ⟨past, h.drain⟩

end Line

end Fieldbus
