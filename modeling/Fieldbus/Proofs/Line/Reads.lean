import Fieldbus.Proofs.Line.Wakes

/-!
# Reads of the near end

`ReadLaw` says what a read answers, and when, after any operations of the near end but `shutdown`.
The deadline that it speaks of is a function of the answers seen so far (`deadlineAfter`): it moves
with each read that brings bytes and with nothing else.
-/

namespace Fieldbus

namespace Line

open PeerEvent (Begun Continues InOrder stream wake?)

variable {line line' : Line} {events behind : List PeerEvent} {got : List UInt8}
  {e : PeerEvent} {n : Nat}

/-! ## Answers -/

/-- The bytes that an answer brings. -/
def LineAnswer.bytes : LineAnswer → List UInt8
  | .read bytes => bytes
  | .wrote _ | .done | .failed _ => []

/-- The bytes that answers have brought. -/
def gained (seen : List (Nat × LineAnswer)) : List UInt8 :=
  seen.flatMap (·.2.bytes)

/-- The deadline after answers, each with the instant at which it was given. -/
def deadlineAfter (idleTimeout : Nat) (seen : List (Nat × LineAnswer)) : Nat :=
  seen.foldl (fun deadline (instant, answer) =>
    if answer.bytes = [] then deadline else instant + idleTimeout) idleTimeout

theorem gained_append (seen later : List (Nat × LineAnswer)) :
    gained (seen ++ later) = gained seen ++ gained later :=
  List.flatMap_append

theorem gained_singleton (instant : Nat) (answer : LineAnswer) :
    gained [(instant, answer)] = answer.bytes :=
  List.append_nil _

theorem deadlineAfter_snoc (idleTimeout : Nat) (seen : List (Nat × LineAnswer)) (instant : Nat)
    (answer : LineAnswer) :
    deadlineAfter idleTimeout (seen ++ [(instant, answer)]) =
      if answer.bytes = [] then deadlineAfter idleTimeout seen else instant + idleTimeout := by
  rw [deadlineAfter, List.foldl_append]
  rfl

/-! ## Rests -/

/-- The near end has rested, or has not. -/
structure Rests (line line' : Line) : Prop where
  lasts : Lasts line line'
  follows : ∀ {events : List PeerEvent} {got : List UInt8},
    Follows events got line → Follows events got line'
  punctual : Punctual line → Punctual line'

theorem Rests.refl (line : Line) : Rests line line :=
  ⟨.refl line, id, id⟩

theorem rests_await (horder : InOrder line.schedule) (ready : Line → Bool) (limit : Option Nat) :
    Rests line (line.await ready (line.instants limit)).2 := by
  have hahead := ahead_instants horder limit
  exact ⟨lasts_await hahead, fun h => h.await hahead,
    fun _ => (turned_await line ready _).punctual⟩

/-- A wait in vain goes on to its limit. -/
theorem rests_limit (horder : InOrder line.schedule) {ready : Line → Bool} {limit : Nat}
    (hnow : line.now < limit)
    (hvain : (line.await ready (line.instants (some limit))).1 = false) :
    Rests line { (line.await ready (line.instants (some limit))).2 with now := limit } := by
  have hahead := ahead_instants horder (some limit)
  have hlt : (line.await ready (line.instants (some limit))).2.now < limit :=
    now_await_lt hnow fun t ht => lt_of_mem_instants ht
  have hcovers := await_in_vain hahead (covers_instants line (some limit)) hvain
  exact ⟨(lasts_await hahead).trans (lasts_now (Nat.le_of_lt hlt)),
    fun h => (h.await hahead).now (Nat.le_of_lt hlt),
    fun _ => (turned_await line ready _).punctual_limit hcovers⟩

/-! ## Operations -/

/-- A read of at most `n` bytes need not wait. -/
def readable (n : Nat) (line : Line) : Bool :=
  line.fired ∨ n = 0 ∨ line.inbound.Readable

theorem readable_iff (hn : 0 < n) (line : Line) : readable n line = true ↔ ¬ Waiting line := by
  have hzero : ¬ n = 0 := Nat.ne_of_gt hn
  have hready : readable n line = true ↔
      line.fired = true ∨ line.inbound.held ≠ [] ∨ line.inbound.closed = true := by
    simp [readable, Pipe.Readable, hzero]
  rw [hready]
  refine ⟨?_, ?_⟩
  · rintro (hfired | hheld | hclosed) hwaiting
    · cases hfired.symm.trans hwaiting.fired
    · exact hheld hwaiting.held
    · cases hclosed.symm.trans hwaiting.closed
  · intro hnot
    by_cases hfired : line.fired = true
    · exact Or.inl hfired
    · by_cases hheld : line.inbound.held = []
      · refine Or.inr (Or.inr (Bool.of_not_eq_false ?_))
        intro hopen
        exact hnot ⟨Bool.eq_false_iff.mpr hfired, hheld, hopen⟩
      · exact Or.inr (Or.inl hheld)

theorem readable_of_fired (h : line.fired = true) (n : Nat) : readable n line = true := by
  simp [readable, h]

theorem read_of_readable (h : readable n line = true) : line.read n = line.take n :=
  if_pos h

theorem read_of_lapsed (h : readable n line = false) (hlapsed : line.deadline ≤ line.now) :
    line.read n = (.failed .timedOut, line) :=
  (if_neg (Bool.eq_false_iff.mp h)).trans (if_pos hlapsed)

/-- A read that has to wait is decided by how its wait ends. -/
theorem read_of_wait {woken : Bool} (h : readable n line = false) (hahead : line.now < line.deadline)
    (hwait : line.await (readable n) (line.instants (some line.deadline)) = (woken, line')) :
    line.read n = if woken then line'.take n
      else (.failed .timedOut, { line' with now := line'.deadline }) := by
  have hpassed : ¬ line.deadline ≤ line.now := Nat.not_le.mpr hahead
  refine ((if_neg (Bool.eq_false_iff.mp h)).trans (if_neg hpassed)).trans ?_
  split
  · rename_i hwoken
    cases hwoken.symm.trans hwait
    rfl
  · rename_i hvain
    cases hvain.symm.trans hwait
    rfl

theorem read_of_woken (h : readable n line = false) (hahead : line.now < line.deadline)
    (hwoken : (line.await (readable n) (line.instants (some line.deadline))).1 = true) :
    line.read n = (line.await (readable n) (line.instants (some line.deadline))).2.take n := by
  rcases hwait : line.await (readable n) (line.instants (some line.deadline)) with ⟨woken, line'⟩
  rw [hwait] at hwoken
  cases hwoken
  exact read_of_wait h hahead hwait

theorem read_of_vain (horder : InOrder line.schedule) (h : readable n line = false)
    (hahead : line.now < line.deadline)
    (hvain : (line.await (readable n) (line.instants (some line.deadline))).1 = false) :
    line.read n = (.failed .timedOut,
      { (line.await (readable n) (line.instants (some line.deadline))).2 with
        now := line.deadline }) := by
  have hlasts : Lasts line (line.await (readable n) (line.instants (some line.deadline))).2 :=
    lasts_await (ahead_instants horder (some line.deadline))
  have hdeadline := hlasts.deadline_eq
  rcases hwait : line.await (readable n) (line.instants (some line.deadline)) with ⟨woken, line'⟩
  rw [hwait] at hvain hdeadline
  cases hvain
  rw [← hdeadline]
  exact read_of_wait h hahead hwait

/-- A read is a rest and then a read that need not wait, or a rest that was in vain. -/
theorem read_cases (horder : InOrder line.schedule) (n : Nat) :
    ∃ line', Rests line line' ∧
      (line.read n = line'.take n ∨
        line.read n = (.failed .timedOut, line') ∧ line.deadline ≤ line'.now) := by
  cases hready : readable n line with
  | true => exact ⟨line, .refl line, Or.inl (read_of_readable hready)⟩
  | false =>
    by_cases hlapsed : line.deadline ≤ line.now
    · exact ⟨line, .refl line, Or.inr ⟨read_of_lapsed hready hlapsed, hlapsed⟩⟩
    · have hahead : line.now < line.deadline := Nat.lt_of_not_le hlapsed
      cases hwoken : (line.await (readable n) (line.instants (some line.deadline))).1 with
      | true =>
        exact ⟨_, rests_await horder (readable n) _, Or.inl (read_of_woken hready hahead hwoken)⟩
      | false =>
        exact ⟨_, rests_limit horder hahead hwoken,
          Or.inr ⟨read_of_vain horder hready hahead hwoken, Nat.le_refl _⟩⟩

theorem write_cases (horder : InOrder line.schedule) (bytes : List UInt8) :
    ∃ line', Rests line line' ∧
      (line.write bytes = line'.put bytes ∨ line.write bytes = (.failed .wouldBlock, line')) := by
  unfold write
  dsimp only
  split
  · exact ⟨line, .refl line, Or.inl rfl⟩
  · have hrests := fun ready => rests_await horder ready none
    split
    · rename_i line' hwait
      have hrested := hrests fun line => line.outbound.closed ∨ bytes = [] ∨ 0 < line.outbound.room
      rw [hwait] at hrested
      exact ⟨line', hrested, Or.inl rfl⟩
    · rename_i line' hwait
      have hrested := hrests fun line => line.outbound.closed ∨ bytes = [] ∨ 0 < line.outbound.room
      rw [hwait] at hrested
      exact ⟨line', hrested, Or.inr rfl⟩

theorem await_never (line : Line) (instants : List Nat) :
    (line.await (fun _ => false) instants).1 = false := by
  induction instants generalizing line with
  | nil => rfl
  | cons t instants ih => exact ih _

theorem sleep_cases (horder : InOrder line.schedule) (span : Nat) :
    ∃ line', Rests line line' ∧ line.sleep span = (.done, line') := by
  unfold sleep
  split
  · exact ⟨line, .refl line, rfl⟩
  · rename_i hspan
    have hwake : line.now < line.now + span := Nat.lt_add_of_pos_right (Nat.pos_of_ne_zero hspan)
    exact ⟨_, rests_limit horder hwake (await_never line _), rfl⟩

theorem take_of_fired (h : line.fired = true) (n : Nat) : line.take n = (.read [], line) :=
  if_pos h

theorem take_of_not_fired (h : line.fired = false) (n : Nat) :
    line.take n = (.read (line.inbound.held.take n),
      { line with
        inbound := { line.inbound with held := line.inbound.held.drop n }
        deadline :=
          if line.inbound.held.take n = [] then line.deadline else line.now + line.idleTimeout }) :=
  if_neg (Bool.eq_false_iff.mp h)

theorem now_take (line : Line) (n : Nat) : (line.take n).2.now = line.now := by
  cases hfired : line.fired with
  | true => rw [take_of_fired hfired]
  | false => rw [take_of_not_fired hfired]

theorem now_put (line : Line) (bytes : List UInt8) : (line.put bytes).2.now = line.now := by
  unfold put
  split <;> rfl

/-- Time does not go back. -/
theorem now_le_step (horder : InOrder line.schedule) (s : LineStep) :
    line.now ≤ (line.step s).2.now := by
  cases s with
  | read n =>
    simp only [step]
    rcases read_cases horder n with ⟨line', hrests, hread | ⟨hread, -⟩⟩
    · rw [hread, now_take]
      exact hrests.lasts.now_le
    · rw [hread]
      exact hrests.lasts.now_le
  | write bytes =>
    simp only [step]
    rcases write_cases horder bytes with ⟨line', hrests, hwrite | hwrite⟩
    · rw [hwrite, now_put]
      exact hrests.lasts.now_le
    · rw [hwrite]
      exact hrests.lasts.now_le
  | flush | shutdown => exact Nat.le_refl _
  | sleep span =>
    simp only [step]
    rcases sleep_cases horder span with ⟨line', hrests, hsleep⟩
    rw [hsleep]
    exact hrests.lasts.now_le

/-! ## Runs -/

/-- What the near end has seen of a line, and what of the far end's schedule has happened to it. -/
structure Sound (idleTimeout capacity : Nat) (events : List PeerEvent)
    (seen : List (Nat × LineAnswer)) (line : Line) : Prop where
  idleTimeout_eq : line.idleTimeout = idleTimeout
  capacity_eq : line.inbound.capacity = capacity
  deadline_eq : line.deadline = deadlineAfter idleTimeout seen
  follows : Follows events (gained seen) line
  punctual : Punctual line

/-- A line whose far end has its schedule before it. -/
def fresh (idleTimeout capacity : Nat) (events : List PeerEvent) : Line :=
  { idleTimeout, inbound := { capacity }, outbound := { capacity }, schedule := events }

/-- Operations of the near end lead from one line to another, and their answers are `seen`, each
with the instant at which it was given. -/
inductive Runs (first : Line) : List (Nat × LineAnswer) → Line → Prop
  | refl : Runs first [] first
  | step {seen : List (Nat × LineAnswer)} {line : Line} {s : LineStep}
      (before : Runs first seen line) (hs : s ≠ .shutdown) :
      Runs first (seen ++ [((line.step s).2.now, (line.step s).1)]) (line.step s).2

namespace Sound

variable {idleTimeout capacity : Nat} {seen : List (Nat × LineAnswer)}

theorem start (idleTimeout capacity : Nat) (events : List PeerEvent) :
    Sound idleTimeout capacity events [] (fresh idleTimeout capacity events) := by
  refine ⟨rfl, rfl, rfl, ⟨[], ?_⟩, ?_⟩
  · refine ⟨fun h => (nomatch h), .refl events, ?_, ?_, fun e he => (nomatch he), rfl⟩
    · exact ⟨fun h => (nomatch h), fun ⟨e, he, _⟩ => (nomatch he)⟩
    · exact ⟨fun h => (nomatch h), fun ⟨e, he, _⟩ => (nomatch he)⟩
  · intro e later _ hlate
    exact absurd hlate (Nat.not_lt_zero _)

theorem rests (h : Sound idleTimeout capacity events seen line) (hrests : Rests line line') :
    Sound idleTimeout capacity events seen line' :=
  ⟨hrests.lasts.idleTimeout_eq.trans h.idleTimeout_eq, hrests.lasts.capacity_eq.trans h.capacity_eq,
    hrests.lasts.deadline_eq.trans h.deadline_eq, hrests.follows h.follows,
    hrests.punctual h.punctual⟩

/-- An answer that brings no bytes moves nothing. -/
theorem answered (h : Sound idleTimeout capacity events seen line) {instant : Nat}
    {answer : LineAnswer} (hanswer : answer.bytes = []) :
    Sound idleTimeout capacity events (seen ++ [(instant, answer)]) line := by
  refine ⟨h.idleTimeout_eq, h.capacity_eq, ?_, ?_, h.punctual⟩
  · rw [deadlineAfter_snoc, if_pos hanswer]
    exact h.deadline_eq
  · rw [gained_append, gained_singleton, hanswer, List.append_nil]
    exact h.follows

theorem take (h : Sound idleTimeout capacity events seen line) (n : Nat) :
    Sound idleTimeout capacity events (seen ++ [((line.take n).2.now, (line.take n).1)])
      (line.take n).2 := by
  cases hfired : line.fired with
  | true =>
    rw [take_of_fired hfired]
    exact h.answered rfl
  | false =>
    rw [take_of_not_fired hfired]
    refine ⟨h.idleTimeout_eq, h.capacity_eq, ?_, ?_, h.punctual⟩
    · rw [deadlineAfter_snoc, ← h.deadline_eq, ← h.idleTimeout_eq]
      rfl
    · rcases h.follows with ⟨past, haccount⟩
      refine ⟨past, haccount.linked, haccount.continues, haccount.fired_iff, haccount.closed_iff,
        haccount.instant_le, ?_⟩
      rw [gained_append, gained_singleton, ← haccount.stream_eq]
      simp only [LineAnswer.bytes]
      rw [List.append_assoc (gained seen), List.take_append_drop]

theorem put (h : Sound idleTimeout capacity events seen line) (bytes : List UInt8) :
    Sound idleTimeout capacity events (seen ++ [((line.put bytes).2.now, (line.put bytes).1)])
      (line.put bytes).2 := by
  unfold Line.put
  split
  · exact h.answered rfl
  · rcases h.follows with ⟨past, haccount⟩
    have haccount' : Account events (gained seen) past
        { line with outbound := line.outbound.push bytes } line.schedule :=
      ⟨haccount.linked, haccount.continues, haccount.fired_iff, haccount.closed_iff,
        haccount.instant_le, haccount.stream_eq⟩
    have hsound : Sound idleTimeout capacity events seen
        { line with outbound := line.outbound.push bytes } :=
      ⟨h.idleTimeout_eq, h.capacity_eq, h.deadline_eq, ⟨past, haccount'⟩, h.punctual⟩
    exact hsound.answered rfl

theorem step (horder : InOrder events) (h : Sound idleTimeout capacity events seen line)
    {s : LineStep} (hs : s ≠ .shutdown) :
    Sound idleTimeout capacity events (seen ++ [((line.step s).2.now, (line.step s).1)])
      (line.step s).2 := by
  have hschedule := h.follows.inOrder horder
  cases s with
  | read n =>
    simp only [Line.step]
    rcases read_cases hschedule n with ⟨line', hrests, hread | ⟨hread, -⟩⟩
    · rw [hread]
      exact (h.rests hrests).take n
    · rw [hread]
      exact (h.rests hrests).answered rfl
  | write bytes =>
    simp only [Line.step]
    rcases write_cases hschedule bytes with ⟨line', hrests, hwrite | hwrite⟩
    · rw [hwrite]
      exact (h.rests hrests).put bytes
    · rw [hwrite]
      exact (h.rests hrests).answered rfl
  | flush => exact h.answered rfl
  | shutdown => exact absurd rfl hs
  | sleep span =>
    simp only [Line.step]
    rcases sleep_cases hschedule span with ⟨line', hrests, hsleep⟩
    rw [hsleep]
    exact (h.rests hrests).answered rfl

theorem runs (horder : InOrder events) {later : List (Nat × LineAnswer)}
    (h : Sound idleTimeout capacity events seen line) (hruns : Runs line later line') :
    Sound idleTimeout capacity events (seen ++ later) line' ∧ line.now ≤ line'.now := by
  induction hruns with
  | refl => exact ⟨(List.append_nil seen).symm ▸ h, Nat.le_refl _⟩
  | step _ hs ih =>
    rw [← List.append_assoc]
    exact ⟨ih.1.step horder hs, Nat.le_trans ih.2 (now_le_step (ih.1.follows.inOrder horder) _)⟩

end Sound

/-! ## The law -/

/-- What a read of at most `n` bytes answers, and when.  The deadline is a matter of the answers
that the near end has seen, and the first event that makes a difference one of the schedule that is
left. -/
structure ReadLaw (idleTimeout capacity : Nat) (seen : List (Nat × LineAnswer)) (line : Line)
    (n : Nat) : Prop where
  /-- Once the token has fired there is nothing to read, and what is there stays. -/
  fired : line.fired = true → line.read n = (.read [], line)
  /-- Bytes that are there are read at once, even after the deadline, and move it. -/
  available : line.fired = false → line.inbound.held ≠ [] →
    line.read n = (.read (line.inbound.held.take n),
      { line with
        inbound := { line.inbound with held := line.inbound.held.drop n }
        deadline := line.now + idleTimeout })
  /-- There is nothing to read after the last byte. -/
  closed : line.fired = false → line.inbound.held = [] → line.inbound.closed = true →
    line.read n = (.read [], line)
  /-- A read that waits ends with the next event, if that comes before the deadline. -/
  wakes : Waiting line → ∀ e behind, wake? capacity line.schedule = some (e, behind) →
    max line.now e.instant < deadlineAfter idleTimeout seen →
    Alone capacity (max line.now e.instant) e behind →
    (line.read n).1 = .read ((e.action.heard capacity).take n) ∧
      (line.read n).2.now = max line.now e.instant
  /-- Otherwise it fails at the deadline, or at once if that has passed. -/
  lapses : Waiting line → (∀ e behind, wake? capacity line.schedule = some (e, behind) →
      deadlineAfter idleTimeout seen ≤ max line.now e.instant) →
    (line.read n).1 = .failed .timedOut ∧
      (line.read n).2.now = max line.now (deadlineAfter idleTimeout seen)
  /-- After a read that has failed no read waits, until one brings bytes. -/
  spent : (line.read n).1 = .failed .timedOut → ∀ later line', Runs (line.read n).2 later line' →
    gained later = [] → Waiting line' → ∀ m > 0, line'.read m = (.failed .timedOut, line')

theorem deadlineAfter_append {idleTimeout : Nat} {seen later : List (Nat × LineAnswer)}
    (h : gained later = []) :
    deadlineAfter idleTimeout (seen ++ later) = deadlineAfter idleTimeout seen := by
  induction later generalizing seen with
  | nil => rw [List.append_nil]
  | cons first later ih =>
    rcases first with ⟨instant, answer⟩
    have hnone : answer.bytes = [] ∧ gained later = [] := List.append_eq_nil_iff.mp h
    rw [← List.singleton_append, ← List.append_assoc, ih hnone.2, deadlineAfter_snoc,
      if_pos hnone.1]

namespace Sound

variable {idleTimeout capacity : Nat} {seen : List (Nat × LineAnswer)}

theorem read_wakes (horder : InOrder events) (h : Sound idleTimeout capacity events seen line)
    (hn : 0 < n) (hwaiting : Waiting line)
    (hwake : wake? capacity line.schedule = some (e, behind))
    (hdeadline : max line.now e.instant < deadlineAfter idleTimeout seen)
    (halone : Alone capacity (max line.now e.instant) e behind) :
    (line.read n).1 = .read ((e.action.heard capacity).take n) ∧
      (line.read n).2.now = max line.now e.instant := by
  have hnot : readable n line = false := Bool.eq_false_iff.mpr fun hready =>
    (readable_iff hn line).mp hready hwaiting
  rw [← h.deadline_eq] at hdeadline
  have hschedule := h.follows.inOrder horder
  rcases await_of_wake (readable_iff hn) horder h.capacity_eq hwaiting h.follows
      (ahead_instants hschedule (some line.deadline)) (covers_instants line (some line.deadline))
      hwake (Nat.lt_of_le_of_lt (Nat.le_max_right ..) hdeadline) halone
    with ⟨hwoken, hnow, hanswer⟩
  rw [read_of_woken hnot (Nat.lt_of_le_of_lt (Nat.le_max_left ..) hdeadline) hwoken]
  exact ⟨hanswer.answer n, (now_take _ n).trans hnow⟩

theorem read_lapses (horder : InOrder events) (h : Sound idleTimeout capacity events seen line)
    (hn : 0 < n) (hwaiting : Waiting line)
    (hquiet : ∀ e behind, wake? capacity line.schedule = some (e, behind) →
      deadlineAfter idleTimeout seen ≤ max line.now e.instant) :
    (line.read n).1 = .failed .timedOut ∧
      (line.read n).2.now = max line.now (deadlineAfter idleTimeout seen) := by
  have hnot : readable n line = false := Bool.eq_false_iff.mpr fun hready =>
    (readable_iff hn line).mp hready hwaiting
  rw [← h.deadline_eq] at hquiet ⊢
  by_cases hlapsed : line.deadline ≤ line.now
  · rw [read_of_lapsed hnot hlapsed]
    exact ⟨rfl, (Nat.max_eq_left hlapsed).symm⟩
  · have hahead : line.now < line.deadline := Nat.lt_of_not_le hlapsed
    have hschedule := h.follows.inOrder horder
    have hlater : ∀ e behind, wake? capacity line.schedule = some (e, behind) →
        line.deadline ≤ e.instant := by
      intro e behind hwake
      have hle := hquiet e behind hwake
      rcases Nat.le_total line.now e.instant with hnow | hnow
      · rwa [Nat.max_eq_right hnow] at hle
      · rw [Nat.max_eq_left hnow] at hle
        exact absurd hle hlapsed
    have hvain := await_of_quiet (readable_iff hn) h.capacity_eq hwaiting h.follows
      (ahead_instants hschedule (some line.deadline)) hahead
      (fun t ht => lt_of_mem_instants ht) hlater
    rw [read_of_vain hschedule hnot hahead hvain]
    exact ⟨rfl, (Nat.max_eq_right (Nat.le_of_lt hahead)).symm⟩

/-- After a read that has failed, the deadline has passed until a read brings bytes. -/
theorem lapsed_of_failed (horder : InOrder events)
    (h : Sound idleTimeout capacity events seen line)
    (hfailed : (line.read n).1 = .failed .timedOut) {later : List (Nat × LineAnswer)}
    (hruns : Runs (line.read n).2 later line') (hlater : gained later = []) :
    line'.deadline ≤ line'.now := by
  have hread := h.step horder (s := .read n) fun h => nomatch h
  rcases hread.runs horder hruns with ⟨hsound, hnow⟩
  have hlapsed : (line.read n).2.deadline ≤ (line.read n).2.now := by
    rcases read_cases (h.follows.inOrder horder) n with ⟨line', hrests, hcase | ⟨hcase, hle⟩⟩
    · rw [hcase] at hfailed
      cases hfired : line'.fired with
      | true =>
        rw [take_of_fired hfired] at hfailed
        cases hfailed
      | false =>
        rw [take_of_not_fired hfired] at hfailed
        cases hfailed
    · rw [hcase]
      exact hrests.lasts.deadline_eq ▸ hle
  calc line'.deadline
      = (line.read n).2.deadline := by
        rw [hsound.deadline_eq, deadlineAfter_append hlater, ← hread.deadline_eq]
        rfl
    _ ≤ (line.read n).2.now := hlapsed
    _ ≤ line'.now := hnow

theorem readLaw (horder : InOrder events) (h : Sound idleTimeout capacity events seen line)
    (hn : 0 < n) : ReadLaw idleTimeout capacity seen line n where
  fired := by
    intro hfired
    have hready : readable n line = true := readable_of_fired hfired n
    rw [read_of_readable hready, take_of_fired hfired]
  available := by
    intro hfired hheld
    have hready : readable n line = true :=
      (readable_iff hn line).mpr fun hwaiting => hheld hwaiting.held
    have htaken : line.inbound.held.take n ≠ [] := by
      simp [hheld, Nat.ne_of_gt hn]
    rw [read_of_readable hready, take_of_not_fired hfired, if_neg htaken, h.idleTimeout_eq]
  closed := by
    intro hfired hheld hclosed
    have hready : readable n line = true := by
      refine (readable_iff hn line).mpr fun hwaiting => ?_
      cases hclosed.symm.trans hwaiting.closed
    rw [read_of_readable hready, take_of_not_fired hfired, hheld, List.take_nil, List.drop_nil,
      if_pos rfl, ← hheld]
  wakes := fun hwaiting _ _ hwake hdeadline halone =>
    h.read_wakes horder hn hwaiting hwake hdeadline halone
  lapses := fun hwaiting hquiet => h.read_lapses horder hn hwaiting hquiet
  spent := by
    intro hfailed later line' hruns hlater hwaiting m hm
    have hnot : readable m line' = false := Bool.eq_false_iff.mpr fun hready =>
      (readable_iff hm line').mp hready hwaiting
    exact read_of_lapsed hnot (h.lapsed_of_failed horder hfailed hruns hlater)

end Sound

/-- The law of reads: after any operations of the near end, on a line whose far end keeps any
schedule of events that come one at a time. -/
theorem read_obeys_law {idleTimeout capacity : Nat} {events : List PeerEvent}
    {seen : List (Nat × LineAnswer)} {line : Line} {n : Nat} (horder : InOrder events)
    (h : Runs (fresh idleTimeout capacity events) seen line) (hn : 0 < n) :
    line.deadline = deadlineAfter idleTimeout seen ∧ Follows events (gained seen) line ∧
      Punctual line ∧ ReadLaw idleTimeout capacity seen line n := by
  have hsound : Sound idleTimeout capacity events seen line :=
    ((Sound.start idleTimeout capacity events).runs horder h).1
  exact ⟨hsound.deadline_eq, hsound.follows, hsound.punctual, hsound.readLaw horder hn⟩

/-- A far end that writes two bytes after three seconds, and fires the token after twenty. -/
def twoBytes : List PeerEvent :=
  [⟨3000, .write [1, 2]⟩, ⟨20000, .cancel⟩]

/-- The first read of the two bytes waits for them; after it the deadline is at eight seconds, where
the third read fails, and so does the fourth. -/
theorem read_obeys_law_twoBytes :
    let first := (fresh 5000 64 twoBytes).read 1
    let second := first.2.read 1
    let third := second.2.read 1
    ReadLaw 5000 64 [(3000, .read [1]), (3000, .read [2])] second.2 1 ∧
      first.1 = .read [1] ∧ second.1 = .read [2] ∧ second.2.now = 3000 ∧
      third.1 = .failed .timedOut ∧ third.2.now = 8000 ∧
      third.2.read 1 = (.failed .timedOut, third.2) := by
  intro first second third
  have horder : InOrder twoBytes := by decide
  have hfirst : Runs (fresh 5000 64 twoBytes) [(3000, .read [1])] first.2 :=
    Runs.refl.step (s := .read 1) fun h => (nomatch h)
  have hsecond : Runs (fresh 5000 64 twoBytes) [(3000, .read [1]), (3000, .read [2])] second.2 :=
    hfirst.step (s := .read 1) fun h => (nomatch h)
  have hlaw := (read_obeys_law horder hsecond (n := 1) Nat.one_pos).2.2.2
  exact ⟨hlaw, by decide, by decide, by decide, by decide, by decide, by decide⟩

end Line

end Fieldbus
