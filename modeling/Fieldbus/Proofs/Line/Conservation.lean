import Fieldbus.Proofs.Line.Reads

/-!
# Conservation of bytes

A line loses no byte and brings none twice.  `Passes` says what has gone along a line between two
moments: what the near end has read was there or was written since, and what the near end has
written is with the far end or on its way, as long as the far end does not drop the line.  Turns,
waits and operations all pass bytes in this sense, and `Passes.trans` puts them together.  They also
keep the token fired once it is, and then no read brings a byte any more (`read_of_fired`).

Nothing is supposed of the schedule of the far end: its events may come in any order.
-/

namespace Fieldbus

/-- How often a schedule drops the line. -/
def PeerEvent.drops (schedule : List PeerEvent) : Nat :=
  schedule.countP (·.action = .drop)

namespace Line

open PeerEvent (stream drops)

variable {line line' line'' : Line} {e : PeerEvent} {events later schedule : List PeerEvent}
  {got got' given given' : List UInt8} {ready : Line → Bool} {instants : List Nat} {n : Nat}

/-! ## Operations in a row -/

/-- Carries out operations of the near end one after the other, and notes each with its answer. -/
def perform (line : Line) : List LineStep → List (LineStep × LineAnswer) × Line
  | [] => ([], line)
  | s :: later =>
    let (answer, line) := line.step s
    let (seen, line) := line.perform later
    ((s, answer) :: seen, line)

/-- What a write has put into the line: the part of its bytes that was accepted. -/
def LineStep.accepted : LineStep × LineAnswer → List UInt8
  | (.write bytes, .wrote count) => bytes.take count
  | _ => []

/-- The bytes that the reads have brought, one after the other. -/
def returned (seen : List (LineStep × LineAnswer)) : List UInt8 :=
  seen.flatMap (·.2.bytes)

/-- The bytes that the writes have put into the line, one after the other. -/
def accepted (seen : List (LineStep × LineAnswer)) : List UInt8 :=
  seen.flatMap LineStep.accepted

/-- The bytes that the far end has still to write: none once it has ended the writing. -/
def unwritten (line : Line) : List UInt8 :=
  if line.inbound.closed then [] else stream line.schedule

/-- The bytes that the far end has written, of those in the schedule that it began with. -/
def written (events : List PeerEvent) (line : Line) : List UInt8 :=
  (stream events).take ((stream events).length - line.unwritten.length)

theorem unwritten_of_closed (h : line.inbound.closed = true) : line.unwritten = [] :=
  if_pos h

theorem written_of_append {bytes : List UInt8} (h : bytes ++ line.unwritten = stream events) :
    written events line = bytes := by
  rw [written, ← h, List.length_append, Nat.add_sub_cancel, List.take_left]

/-! ## What goes along a line -/

/-- Between two moments the near end has read `got` and has written `given`.  A token that has fired
stays fired. -/
structure Passes (line : Line) (got given : List UInt8) (line' : Line) : Prop where
  inward : ∃ more, line.inbound.held ++ more = got ++ line'.inbound.held ∧
    line.unwritten = more ++ line'.unwritten
  drops_le : drops line'.schedule ≤ drops line.schedule
  outward : drops line'.schedule = drops line.schedule →
    line'.received ++ line'.outbound.held = line.received ++ line.outbound.held ++ given
  fired : line.fired = true → line'.fired = true

namespace Passes

theorem refl (line : Line) : Passes line [] [] line :=
  ⟨⟨[], List.append_nil _, rfl⟩, Nat.le_refl _, fun _ => (List.append_nil _).symm, id⟩

theorem trans (h : Passes line got given line') (h' : Passes line' got' given' line'') :
    Passes line (got ++ got') (given ++ given') line'' := by
  refine ⟨?_, Nat.le_trans h'.drops_le h.drops_le, ?_, h'.fired ∘ h.fired⟩
  · rcases h.inward with ⟨more, hheld, hunwritten⟩
    rcases h'.inward with ⟨more', hheld', hunwritten'⟩
    refine ⟨more ++ more', ?_, ?_⟩
    · calc line.inbound.held ++ (more ++ more')
          = got ++ (line'.inbound.held ++ more') := by
            rw [← List.append_assoc, hheld, List.append_assoc]
        _ = got ++ got' ++ line''.inbound.held := by rw [hheld', List.append_assoc]
    · rw [hunwritten, hunwritten', List.append_assoc]
  · intro hdrops
    -- No event is put back, so there was no drop on either stretch.
    have hfirst : drops line'.schedule = drops line.schedule :=
      Nat.le_antisymm h.drops_le (hdrops ▸ h'.drops_le)
    calc line''.received ++ line''.outbound.held
        = line'.received ++ line'.outbound.held ++ given' := h'.outward (hdrops.trans hfirst.symm)
      _ = line.received ++ line.outbound.held ++ (given ++ given') := by
          rw [h.outward hfirst, List.append_assoc]

/-- A stretch on which the near end does nothing. -/
theorem rest (h : Passes line got given line') (h' : Passes line' [] [] line'') :
    Passes line got given line'' := by
  have hboth := h.trans h'
  rwa [List.append_nil, List.append_nil] at hboth

end Passes

/-! ## Turns -/

/-- The bytes of an action go into the pipe as far as they fit; the others are still to be
written, before those of the events behind it. -/
theorem Acted.inward {action : PeerAction} {rest : List UInt8} (instant : Nat)
    (later : List PeerEvent) (h : Acted line action line' rest) :
    ∃ more, line'.inbound.held = line.inbound.held ++ more ∧
      (if line.inbound.closed then [] else stream (⟨instant, action⟩ :: later)) =
        more ++ (if line'.inbound.closed then [] else rest ++ stream later) := by
  cases h with
  | lost bytes hclosed =>
    refine ⟨[], (List.append_nil _).symm, ?_⟩
    rw [if_pos hclosed, if_pos hclosed, List.append_nil]
  | write bytes hopen =>
    refine ⟨bytes.take line.inbound.room, rfl, ?_⟩
    simp only [hopen, Pipe.push, Bool.false_eq_true, if_false, stream]
    rw [← List.append_assoc, List.take_append_drop]
  | close | drop => exact ⟨[], (List.append_nil _).symm, ite_self _⟩
  | cancel => exact ⟨[], (List.append_nil _).symm, rfl⟩

/-- An action that is not a drop leaves what goes the other way. -/
theorem Acted.outward {action : PeerAction} {rest : List UInt8}
    (h : Acted line action line' rest) (hdrop : action ≠ .drop) :
    line'.received ++ line'.outbound.held = line.received ++ line.outbound.held := by
  cases h with
  | lost | write | close | cancel => rfl
  | drop => exact absurd rfl hdrop

theorem Acted.passes {rest : List UInt8} {left : List PeerEvent}
    (h : Acted line e.action line' rest) (hstream : stream left = rest ++ stream later)
    (hdrops : drops left = drops later) :
    Passes { line with schedule := e :: later } [] [] { line' with schedule := left } := by
  rcases h.inward e.instant later with ⟨more, hheld, hunwritten⟩
  refine ⟨⟨more, hheld.symm, ?_⟩, ?_, fun hsame => ?_, fun hfired => h.fired_iff.mpr (Or.inl hfired)⟩
  · rw [← hstream] at hunwritten
    exact hunwritten
  · exact Nat.le_trans (Nat.le_of_eq hdrops) (List.sublist_cons_self e later).countP_le
  · have hdrop : e.action ≠ .drop := by
      intro haction
      have hmore : drops (e :: later) = drops later + 1 :=
        List.countP_cons_of_pos (decide_eq_true haction)
      exact Nat.ne_of_lt (Nat.lt_succ_self _) ((hdrops.symm.trans hsame).trans hmore)
    exact (h.outward hdrop).trans (List.append_nil _).symm

theorem passes_drain (line : Line) :
    Passes { line with schedule := [] } [] [] { line.drain with schedule := [] } := by
  refine ⟨⟨[], ?_, ?_⟩, Nat.le_refl _, fun _ => ?_, id⟩
  · unfold drain
    split <;> exact List.append_nil _
  · have hnone (line : Line) : unwritten { line with schedule := [] } = [] := ite_self _
    rw [hnone, hnone, List.append_nil]
  · simp only [drain, Pipe.drained]

theorem passes_peerTurn (line : Line) : Passes line [] [] line.peerTurn := by
  -- What is left is put back, an event is done, an event is done in part, or none is left.
  refine go_induct (P := fun line' schedule => Passes line [] [] { line' with schedule })
    ?_ ?_ ?_ ?_ (.refl line)
  · intro line' schedule events h
    exact h
  · intro line' line'' e later h _ hacted
    exact h.rest (hacted.passes rfl rfl)
  · intro line' line'' e later rest h hacted _
    exact h.rest (hacted.passes rfl (List.countP_cons_of_neg (by simp)))
  · intro line' h
    exact h.rest (passes_drain line')

theorem passes_now (line : Line) (instant : Nat) :
    Passes line [] [] { line with now := instant } :=
  ⟨⟨[], List.append_nil _, rfl⟩, Nat.le_refl _, fun _ => (List.append_nil _).symm, id⟩

theorem passes_await (line : Line) (ready : Line → Bool) (instants : List Nat) :
    Passes line [] [] (line.await ready instants).2 := by
  induction instants generalizing line with
  | nil => exact passes_peerTurn line
  | cons t instants ih =>
    rw [await]
    split
    · exact passes_peerTurn line
    · exact (passes_peerTurn line).rest ((passes_now _ t).rest (ih _))

/-- A wait answers whether what it waited for holds at its end. -/
theorem ready_await (line : Line) (ready : Line → Bool) (instants : List Nat) :
    ready (line.await ready instants).2 = (line.await ready instants).1 := by
  induction instants generalizing line with
  | nil => rfl
  | cons t instants ih =>
    rw [await]
    split
    · rename_i hready
      exact hready
    · exact ih _

/-! ## Operations -/

theorem passes_take (line : Line) (n : Nat) :
    Passes line (line.take n).1.bytes [] (line.take n).2 := by
  cases hfired : line.fired with
  | true =>
    rw [take_of_fired hfired]
    exact .refl line
  | false =>
    rw [take_of_not_fired hfired]
    refine ⟨⟨[], ?_, rfl⟩, Nat.le_refl _, fun _ => (List.append_nil _).symm, fun h => ?_⟩
    · rw [List.append_nil]
      exact (List.take_append_drop n _).symm
    · cases hfired.symm.trans h

theorem passes_put (line : Line) (bytes : List UInt8) :
    Passes line (line.put bytes).1.bytes (LineStep.accepted (.write bytes, (line.put bytes).1))
      (line.put bytes).2 := by
  unfold put
  split
  · exact .refl line
  · refine ⟨⟨[], List.append_nil _, rfl⟩, Nat.le_refl _, fun _ => ?_, id⟩
    simp only [LineStep.accepted, Pipe.push]
    rw [List.append_assoc, Nat.min_comm, ← List.take_eq_take_min]

/-- A read is a stretch on which the near end does nothing, and then a read that need not wait, or a
failure if it would have to go on waiting. -/
theorem read_rests (line : Line) (n : Nat) :
    ∃ line', Passes line [] [] line' ∧
      (readable n line' = true ∧ line.read n = line'.take n ∨
        readable n line' = false ∧ line.read n = (.failed .timedOut, line')) := by
  cases hready : readable n line with
  | true => exact ⟨line, .refl line, Or.inl ⟨hready, read_of_readable hready⟩⟩
  | false =>
    by_cases hlapsed : line.deadline ≤ line.now
    · exact ⟨line, .refl line, Or.inr ⟨hready, read_of_lapsed hready hlapsed⟩⟩
    · have hahead : line.now < line.deadline := Nat.lt_of_not_le hlapsed
      have hpasses := passes_await line (readable n) (line.instants (some line.deadline))
      have hwoken := ready_await line (readable n) (line.instants (some line.deadline))
      rcases hwait : line.await (readable n) (line.instants (some line.deadline))
        with ⟨woken, line'⟩
      rw [hwait] at hpasses hwoken
      have hread := read_of_wait hready hahead hwait
      cases woken with
      | true => exact ⟨line', hpasses, Or.inl ⟨hwoken, hread⟩⟩
      | false =>
        exact ⟨{ line' with now := line'.deadline }, hpasses.rest (passes_now line' _),
          Or.inr ⟨hwoken, hread⟩⟩

theorem passes_read (line : Line) (n : Nat) :
    Passes line (line.read n).1.bytes [] (line.read n).2 := by
  rcases read_rests line n with ⟨line', hrest, ⟨-, hread⟩ | ⟨-, hread⟩⟩
  · rw [hread]
    exact hrest.trans (passes_take line' n)
  · rw [hread]
    exact hrest

theorem passes_write (line : Line) (bytes : List UInt8) :
    Passes line (line.write bytes).1.bytes
      (LineStep.accepted (.write bytes, (line.write bytes).1)) (line.write bytes).2 := by
  unfold write
  dsimp only
  split
  · exact passes_put line bytes
  · have hpasses := fun ready => passes_await line ready (line.instants none)
    split
    · rename_i line' hwait
      have hrest := hpasses fun line => line.outbound.closed ∨ bytes = [] ∨ 0 < line.outbound.room
      rw [hwait] at hrest
      exact hrest.trans (passes_put line' bytes)
    · rename_i line' hwait
      have hrest := hpasses fun line => line.outbound.closed ∨ bytes = [] ∨ 0 < line.outbound.room
      rw [hwait] at hrest
      exact hrest

theorem passes_sleep (line : Line) (span : Nat) :
    Passes line (line.sleep span).1.bytes [] (line.sleep span).2 := by
  unfold sleep
  split
  · exact .refl line
  · exact (passes_await line _ _).rest (passes_now _ _)

/-- What one operation of the near end passes along the line. -/
theorem passes_step (line : Line) (s : LineStep) :
    Passes line (line.step s).1.bytes (LineStep.accepted (s, (line.step s).1))
      (line.step s).2 := by
  cases s with
  | read n => exact passes_read line n
  | write bytes => exact passes_write line bytes
  | flush => exact .refl line
  | shutdown =>
    exact ⟨⟨[], List.append_nil _, rfl⟩, Nat.le_refl _, fun _ => (List.append_nil _).symm, id⟩
  | sleep span => exact passes_sleep line span

/-- What operations in a row pass along the line. -/
theorem passes_perform (line : Line) (steps : List LineStep) :
    Passes line (returned (line.perform steps).1) (accepted (line.perform steps).1)
      (line.perform steps).2 := by
  induction steps generalizing line with
  | nil => exact .refl line
  | cons s later ih => exact (passes_step line s).trans (ih (line.step s).2)

/-! ## The token -/

/-- A token that has fired stays fired, whatever the near end does. -/
theorem fired_perform (h : line.fired = true) (steps : List LineStep) :
    (line.perform steps).2.fired = true :=
  (passes_perform line steps).fired h

/-- A read by whose end the token has fired answers nothing, whether it had fired before the read or
did so while the read waited. -/
theorem read_of_fired (h : (line.read n).2.fired = true) : (line.read n).1 = .read [] := by
  rcases read_rests line n with ⟨line', -, ⟨-, hread⟩ | ⟨hready, hread⟩⟩
  · rw [hread] at h ⊢
    cases hfired : line'.fired with
    | true => rw [take_of_fired hfired]
    | false =>
      -- What is taken from the pipe leaves the token as it was.
      rw [take_of_not_fired hfired] at h
      cases hfired.symm.trans h
  · -- A read does not fail before it has looked at the token once more.
    rw [hread] at h
    cases hready.symm.trans (readable_of_fired h n)

/-! ## The end of the line -/

theorem drops_cons_eq_zero (h : drops (e :: later) = 0) : e.action ≠ .drop ∧ drops later = 0 := by
  have hnone := List.countP_eq_zero.mp h
  refine ⟨?_, List.countP_eq_zero.mpr fun e' he' => hnone e' (List.mem_cons_of_mem _ he')⟩
  intro hdrop
  exact hnone e List.mem_cons_self (decide_eq_true hdrop)

/-- A line that takes no more leaves nothing of an action to be done. -/
theorem Acted.of_closed {action : PeerAction} {rest : List UInt8}
    (h : Acted line action line' rest) (hclosed : line.inbound.closed = true) :
    rest = [] ∧ line'.inbound.closed = true := by
  cases h with
  | lost | cancel => exact ⟨rfl, hclosed⟩
  | write bytes hopen => cases hclosed.symm.trans hopen
  | close | drop => exact ⟨rfl, rfl⟩

/-- With the near end gone and all events due, the far end gets to reading what is left. -/
theorem received_go (hclosed : line.inbound.closed = true)
    (hdue : ∀ e ∈ schedule, e.instant ≤ line.now) (hdrops : drops schedule = 0) :
    (peerTurn.go line schedule).received = line.received ++ line.outbound.held := by
  induction schedule generalizing line with
  | nil => rfl
  | cons e later ih =>
    rcases drops_cons_eq_zero hdrops with ⟨hdrop, hlater⟩
    have hacted := line.acted e.action
    rcases hact : line.act e.action with ⟨line', rest⟩
    rw [hact] at hacted
    rcases hacted.of_closed hclosed with ⟨rfl, hclosed'⟩
    have hdue' : ∀ e ∈ later, e.instant ≤ line'.now := by
      intro e' he'
      exact hacted.kept.now_eq ▸ hdue e' (List.mem_cons_of_mem _ he')
    calc (peerTurn.go line (e :: later)).received
        = (peerTurn.go line' later).received := by rw [go_done (hdue e List.mem_cons_self) hact]
      _ = line'.received ++ line'.outbound.held := ih hclosed' hdue' hlater
      _ = line.received ++ line.outbound.held := hacted.outward hdrop

/-- When the near end lets the line go, the far end gets all that is on its way. -/
theorem received_finish (hdrops : drops line.schedule = 0) :
    line.finish.received = line.received ++ line.outbound.held := by
  refine received_go rfl ?_ ?_
  · intro e he
    rcases List.mem_map.mp he with ⟨e', -, rfl⟩
    exact Nat.zero_le _
  · exact List.countP_map.trans hdrops

/-! ## Conservation -/

/-- Where the bytes are when the near end has seen `seen` of a line whose far end began with
`events`. -/
structure Conserves (events : List PeerEvent) (seen : List (LineStep × LineAnswer)) (line : Line) :
    Prop where
  /-- What the far end has written, and what it has still to write. -/
  written_append : written events line ++ line.unwritten = stream events
  /-- What the reads have brought, and what is still in the pipe. -/
  returned_append : returned seen ++ line.inbound.held = written events line
  returned_prefix : returned seen <+: written events line
  /-- A read that brings nothing consumes nothing, whether it fails or answers nothing: the pipe
  has changed by what the far end has written in the meantime. -/
  vain : ∀ n, (line.read n).1.bytes = [] → ∃ more,
    (line.read n).2.inbound.held = line.inbound.held ++ more ∧
      written events (line.read n).2 = written events line ++ more
  /-- A read that had room and answers nothing, with the token not fired, has come to the end of
  what the far end writes. -/
  ended : ∀ n > 0, (line.read n).1 = .read [] → (line.read n).2.fired = false →
    returned seen = written events (line.read n).2 ∧ returned seen = stream events
  /-- Until the far end drops the line, what the writes put into it has been received or is on its
  way. -/
  accepted_eq : drops line.schedule = drops events →
    line.received ++ line.outbound.held = accepted seen
  /-- If the far end never drops the line, it receives that in full. -/
  received_eq : drops events = 0 → line.finish.received = accepted seen

namespace Passes

variable {idleTimeout capacity : Nat}

/-- What has gone along a line since its far end began makes up what the far end writes. -/
theorem stream_eq (h : Passes (fresh idleTimeout capacity events) got given line) :
    got ++ line.inbound.held ++ line.unwritten = stream events ∧
      written events line = got ++ line.inbound.held := by
  rcases h.inward with ⟨more, hheld, hunwritten⟩
  have hmore : more = got ++ line.inbound.held := hheld
  have hstream : got ++ line.inbound.held ++ line.unwritten = stream events := by
    rw [← hmore]
    exact hunwritten.symm
  exact ⟨hstream, written_of_append hstream⟩

end Passes

/-- A read that has room, and answers nothing before the token has fired, finds the pipe empty and
closed. -/
theorem closed_of_read (hn : 0 < n) (h : (line.read n).1 = .read [])
    (hfired : (line.read n).2.fired = false) :
    (line.read n).2.inbound.held = [] ∧ (line.read n).2.inbound.closed = true := by
  rcases read_rests line n with ⟨line', -, ⟨hready, hread⟩ | ⟨-, hread⟩⟩
  · rw [hread] at h hfired ⊢
    cases hfired' : line'.fired with
    | true =>
      rw [take_of_fired hfired'] at hfired
      cases hfired.symm.trans hfired'
    | false =>
      rw [take_of_not_fired hfired'] at h ⊢
      have htaken : line'.inbound.held.take n = [] := LineAnswer.read.inj h
      have hheld : line'.inbound.held = [] :=
        (List.take_eq_nil_iff.mp htaken).resolve_left (Nat.ne_of_gt hn)
      have hnot : ¬ Waiting line' := (readable_iff hn line').mp hready
      -- It did not have to wait, and with the pipe empty only its end can be the reason.
      have hclosed : line'.inbound.closed = true := by
        refine Bool.of_not_eq_false fun hopen => ?_
        exact hnot ⟨hfired', hheld, hopen⟩
      refine ⟨?_, hclosed⟩
      simp only [hheld, List.drop_nil]
  · rw [hread] at h
    cases h

/-- No byte is lost on a line, and none comes twice: after any operations of the near end, whatever
the far end does and when, and however little the pipes hold. -/
theorem perform_conserves (idleTimeout capacity : Nat) (events : List PeerEvent)
    (steps : List LineStep) :
    Conserves events ((fresh idleTimeout capacity events).perform steps).1
      ((fresh idleTimeout capacity events).perform steps).2 := by
  have hpasses := passes_perform (fresh idleTimeout capacity events) steps
  rcases hperform : (fresh idleTimeout capacity events).perform steps with ⟨seen, line⟩
  rw [hperform] at hpasses
  rcases hpasses.stream_eq with ⟨hstream, hwritten⟩
  -- What a read brings comes after what the reads before it have brought.
  have hread (n : Nat) := (hpasses.trans (passes_read line n)).stream_eq
  refine ⟨?_, hwritten.symm, ⟨_, hwritten.symm⟩, ?_, ?_, ?_, ?_⟩
  · rw [hwritten]
    exact hstream
  · intro n hnone
    rcases (passes_read line n).inward with ⟨more, hheld, -⟩
    have hheld' : (line.read n).2.inbound.held = line.inbound.held ++ more := by
      rw [hheld, hnone, List.nil_append]
    refine ⟨more, hheld', ?_⟩
    rw [(hread n).2, hwritten, hnone, hheld', List.append_nil, List.append_assoc]
  · intro n hn hnone hfired
    rcases closed_of_read hn hnone hfired with ⟨hempty, hclosed⟩
    -- Nothing is in the pipe and nothing can come, so that the reads have brought all there is.
    have hlast := hread n
    rw [hnone, hempty, unwritten_of_closed hclosed] at hlast
    simp only [LineAnswer.bytes, List.append_nil] at hlast
    exact ⟨hlast.2.symm, hlast.1⟩
  · intro hdrops
    exact hpasses.outward hdrops
  · intro hnone
    -- A schedule without a drop has none to lose.
    have hdrops : drops line.schedule = drops events :=
      Nat.le_antisymm hpasses.drops_le (hnone ▸ Nat.zero_le _)
    rw [received_finish (hdrops.trans hnone)]
    exact hpasses.outward hdrops

/-- A pipe of two bytes is between a write of five and reads that come in between, and the token
fires with bytes still in the pipe; the writes of the near end go on after that. -/
example :
    let (seen, line) := (fresh 5000 2 [⟨0, .write [1, 2, 3, 4, 5]⟩, ⟨10, .cancel⟩]).perform
      [.read 1, .write [7, 8, 9], .read 8, .read 1, .sleep 20, .read 8, .write [6]]
    returned seen = [1, 2, 3] ∧ line.inbound.held = [4, 5] ∧ accepted seen = [7, 8, 6] ∧
      line.finish.received = [7, 8, 6] := by
  decide

end Line

end Fieldbus
