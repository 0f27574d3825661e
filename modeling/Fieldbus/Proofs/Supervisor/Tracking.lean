import Fieldbus.Proofs.Supervisor.Checks

/-!
# Keeping track of health checks

What each process adds to the health checks that were made.  As long as the ledger is right, waits
and attempts to start the transport add the checks that fall due on the way (`Ledger.Tracking`), and
each of them shows what the ledger expects at its instant (`Ledger.Vouches`).  Once the token has
fired, nothing is added at all.
-/

namespace Fieldbus

namespace World

open Process

variable {w w' : World} {limit : Nat}

/-! ## After the token has fired -/

/-- Once the token has fired, it stays so and no health checks are made. -/
def Hushed (w : World) (events : List Event) (w' : World) : Prop :=
  w.fired = true → w'.fired = true ∧ checks events = []

instance : Cumulative Hushed where
  nil _ hfired := ⟨hfired, rfl⟩
  append {w w' w'' before after} h h' hfired := by
    rcases h hfired with ⟨hfired', hbefore⟩
    rcases h' hfired' with ⟨hfired'', hafter⟩
    refine ⟨hfired'', ?_⟩
    rw [checks_append, hbefore, hafter]
    rfl

theorem hushed_turn (w : World) : Upholds Hushed turn w := by
  have hcancelled : Upholds Hushed cancelTurn w := by
    have hstate : (cancelTurn w).state = if w.CancelDue then w.fire else w := rfl
    intro hfired
    refine ⟨?_, rfl⟩
    rw [hstate]
    split
    · rfl
    · exact hfired
  have hbegun (w : World) : Upholds Hushed beginTurn w := fun hfired =>
    ⟨hfired, checks_of_inBackground (inBackground_beginTurn w)⟩
  refine hcancelled.bind ((hbegun _).bind (.get_bind ?_))
  split
  · exact fun hfired => ⟨hfired, checks_of_inBackground (inBackground_endTurn _)⟩
  · -- Loops tick only as long as the token has not fired.
    rename_i hnot
    exact fun hfired => absurd hfired hnot

theorem hushed_passUntil (hended : w.fired = true → w.loops = []) :
    Upholds Hushed (passUntil limit) w := by
  intro hfired
  rw [passUntil_of_no_loops (hended hfired)]
  exact ⟨hfired, rfl⟩

theorem hushed_awaitToken (w : World) : Upholds Hushed awaitToken w :=
  upholds_awaitToken hushed_turn (fun h => hushed_passUntil h.ended) w

theorem hushed_completeStop (hdown : checks w.plan.transport.downEvents = []) :
    Upholds Hushed completeStop w := by
  intro hfired
  refine ⟨hfired, ?_⟩
  exact hdown

theorem hushed_joinLoops (w : World) : Upholds Hushed joinLoops w := by
  refine fun hfired => ⟨hfired, checks_eq_nil ?_⟩
  intro e he
  rw [eq_taskFailed_of_joinLoops he]
  rfl

theorem hushed_drain (hdown : checks w.plan.transport.downEvents = []) :
    Upholds Hushed drain w := by
  refine upholds_drain hushed_turn (fun _ _ => hushed_passUntil fun h => (turn_of_fired h).1)
    (fun w' hplan => hushed_completeStop ?_) hushed_joinLoops
  rw [hplan]
  exact hdown

/-- A shutdown makes no health checks, since it fires the token first. -/
theorem checks_shutdown (hdown : checks w.plan.transport.downEvents = []) :
    checks (shutdown w).events = [] := by
  by_cases hphase : w.phase = .idle ∨ w.phase = .stopped
  · rw [events_shutdown_of_resting hphase]
    rfl
  · have hdrain : checks (drain w.draining).events = [] :=
      (hushed_drain (w := w.draining) hdown rfl).2
    rcases shutdown_cases hphase with ⟨-, -, -, hevents⟩ | ⟨-, -, -, hevents⟩
    all_goals
      rw [hevents, checks_cons rfl, checks_cons rfl, checks_append, hdrain]
      rfl

theorem hushed_shutdown (hdown : checks w.plan.transport.downEvents = []) :
    Upholds Hushed shutdown w := by
  intro hfired
  refine ⟨?_, checks_shutdown hdown⟩
  by_cases hphase : w.phase = .idle ∨ w.phase = .stopped
  · rw [(shutdown_of_resting hphase).2]
    exact hfired
  · exact Ledger.fired_shutdown_of_busy hphase

theorem hushed_start (w : World) : Upholds Hushed start w := by
  intro hfired
  rcases start_of_fired hfired with ⟨-, hstate, hevents⟩
  rw [hstate, hevents]
  exact ⟨hfired, rfl⟩

/-- Once the token has fired, no step makes health checks. -/
theorem hushed_step (hdown : checks w.plan.transport.downEvents = []) (s : SupervisorStep) :
    Upholds Hushed (step s) w := by
  cases s with
  | start => exact (hushed_start w).bind (.pure _ _)
  | wait => exact (hushed_awaitToken w).bind (.pure _ _)
  | shutdown => exact (hushed_shutdown hdown).bind (.pure _ _)
  | cancel => exact fun _ => ⟨rfl, rfl⟩
  | run =>
    -- The start of a whole run is cancelled, so that nothing is left to wait for.
    intro hfired
    have hrun : Upholds Hushed runToEnd w := by
      rw [runToEnd_eq]
      refine (hushed_start w).bind ?_
      rw [(start_of_fired hfired).1]
      exact fun hfired => ⟨hfired, rfl⟩
    exact hrun.bind (.pure _ _) hfired
  | sleep span =>
    exact upholds_step_sleep hushed_turn (fun h => hushed_passUntil h.ended) span w
  | device operations =>
    refine Upholds.bind (fun hfired => ⟨hfired, ?_⟩) (.pure _ _)
    exact checks_of_isDevice (w.device.isDevice_run operations)

end World

namespace Ledger

open World

variable {α : Type} {k : Ledger} {n limit : Nat} {made : List Checkup} {w w' : World}

/-! ## Health checks by the ledger -/

/-- The check is made at a tick of the ledger, between two instants, and shows the statistics `s`.
The counter that it shows has had the updates that were expected before that instant, unless it
ticks itself then. -/
structure Vouches (k : Ledger) (s : Statistics) (since last : Nat) (c : Checkup) : Prop where
  since_le : since ≤ c.instant
  le_last : c.instant ≤ last
  tick : ∃ start ∈ k.started, IsTick k.plan.healthPeriod start c.instant
  statistics_eq : c.statistics = s
  counter_eq : k.Apart c.instant → c.counter = counterValue (k.expected c.instant)

/-- After `n` updates the ledger is right, and so are the checks that were made. -/
structure Tracks (k : Ledger) (n : Nat) (made : List Checkup) (w : World) : Prop where
  holds : k.Holds n w
  ongoing : w.fired = false → Checkups.Ongoing k.plan.healthPeriod k.started made w
  complete : w.fired = true →
    ∀ instant ∈ k.cut, Checkups.Complete k.plan.healthPeriod k.started made instant

/-- Between a world and a later one, events add checks to those that were made. -/
structure Adds (k : Ledger) (n : Nat) (made : List Checkup) (w : World) (events : List Event)
    (later : List Checkup) (w' : World) : Prop where
  now_le : w.now ≤ w'.now
  statistics_eq : w'.device.statistics = w.device.statistics
  checks_eq : checks events = later.map Checkup.event
  vouched : ∀ c ∈ later, k.Vouches w.device.statistics w.now w'.now c
  tracks : k.Tracks (n + updates events) (made ++ later) w'

/-- If the ledger and the checks were right, they are still, with the checks that were added. -/
def Tracking (k : Ledger) (w : World) (events : List Event) (w' : World) : Prop :=
  ∀ n made, k.Tracks n made w → ∃ later, k.Adds n made w events later w'

theorem Vouches.mono {s s' : Statistics} {since since' last last' : Nat} {c : Checkup}
    (h : k.Vouches s since last c) (hstatistics : s = s') (hsince : since' ≤ since)
    (hlast : last ≤ last') : k.Vouches s' since' last' c :=
  ⟨Nat.le_trans hsince h.since_le, Nat.le_trans h.le_last hlast, h.tick,
    h.statistics_eq.trans hstatistics, h.counter_eq⟩

/-- Nothing is added. -/
theorem Adds.nothing {events : List Event} (hnow : w.now ≤ w'.now)
    (hstatistics : w'.device.statistics = w.device.statistics) (hchecks : checks events = [])
    (htracks : k.Tracks (n + updates events) made w') : k.Adds n made w events [] w' where
  now_le := hnow
  statistics_eq := hstatistics
  checks_eq := hchecks
  vouched := nofun
  tracks := by rw [List.append_nil]; exact htracks

theorem Adds.trans {before after : List Event} {w'' : World} {first second : List Checkup}
    (h : k.Adds n made w before first w')
    (h' : k.Adds (n + updates before) (made ++ first) w' after second w'') :
    k.Adds n made w (before ++ after) (first ++ second) w'' where
  now_le := Nat.le_trans h.now_le h'.now_le
  statistics_eq := h'.statistics_eq.trans h.statistics_eq
  checks_eq := by rw [checks_append, h.checks_eq, h'.checks_eq, List.map_append]
  vouched := by
    intro c hc
    rcases List.mem_append.mp hc with hc | hc
    · exact (h.vouched c hc).mono rfl (Nat.le_refl _) h'.now_le
    · exact (h'.vouched c hc).mono h.statistics_eq h.now_le (Nat.le_refl _)
  tracks := by
    rw [updates_append, ← Nat.add_assoc, ← List.append_assoc]
    exact h'.tracks

instance : Process.Cumulative k.Tracking where
  nil w n made h := ⟨[], .nothing (Nat.le_refl _) rfl rfl h⟩
  append {w w' w'' before after} h h' n made hmade := by
    rcases h n made hmade with ⟨first, hfirst⟩
    rcases h' _ _ hfirst.tracks with ⟨second, hsecond⟩
    exact ⟨first ++ second, hfirst.trans hsecond⟩

theorem Tracks.of_agree (h : k.Tracks n made w) (hagree : Agree w w') : k.Tracks n made w' where
  holds := h.holds.of_agree hagree
  ongoing := by
    intro hfired
    exact (h.ongoing (hagree.fired_eq.symm.trans hfired)).of_eq hagree.now_eq hagree.loops_eq
  complete := fun hfired => h.complete (hagree.fired_eq.symm.trans hfired)

/-- Neither the ledger nor the loops are touched, and what is reported is neither an update nor a
health check. -/
theorem tracking_of_agree {events : List Event} (hagree : Agree w w')
    (hquiet : w.plan = k.plan → updates events = 0 ∧ checks events = []) :
    k.Tracking w events w' := by
  intro n made h
  rcases hquiet h.holds.plan_eq with ⟨hupdates, hchecks⟩
  refine ⟨[], .nothing (Nat.le_of_eq hagree.now_eq.symm) ?_ hchecks ?_⟩
  · rw [hagree.device_eq]
  · rw [hupdates]
    exact h.of_agree hagree

/-! ## Ticks -/

/-- The checks that are due are made. -/
theorem Tracks.tickTurn (h : k.Tracks n made w) (hfired : w.fired = false) :
    ∃ later, k.Adds n made w (World.tickTurn w).events later (World.tickTurn w).state := by
  have hlive := h.holds.live hfired
  have hongoing := h.ongoing hfired
  rcases Loop.exists_checkups_tickAll w.now (Loop.due w.now w.loops) w.device
    with ⟨later, hchecks, hlength, hshown⟩
  rw [Loop.countP_due] at hlength
  refine ⟨later, Nat.le_refl _, Loop.statistics_tickAll _ _, hchecks, ?_, ?_⟩
  · intro c hc
    rcases hshown c hc with ⟨hinstant, hstatistics, hcounter⟩
    refine ⟨Nat.le_of_eq hinstant.symm, Nat.le_of_eq hinstant, ?_, hstatistics, ?_⟩
    · -- Some health loop is due, and it is on schedule.
      have hsome := List.length_pos_of_mem hc
      rw [hlength, List.countP_pos_iff] at hsome
      rcases hsome with ⟨l, hl, hdue⟩
      rcases of_decide_eq_true hdue with ⟨hdue, htask⟩
      have hschedule := hongoing.onSchedule _ (List.mem_map_of_mem hl)
      have hnext : l.next = w.now := Nat.le_antisymm hdue.2 (hongoing.notLate l hl hdue.1)
      have htick := hschedule.next ⟨Loop.exchanged_counter_iff.mpr htask, hdue.1⟩
      rw [hinstant, ← hnext]
      exact htick
    · intro hapart
      rw [hinstant] at hapart ⊢
      rw [hcounter, hlive.device.counterAt.counter_eq, ← hlive.eq_expected hapart]
      -- A counter loop that is due would tick on an instant on which no tick falls.
      intro l hl htask
      have hmem : l ∈ w.loops.filter fun l => l.IsDue w.now :=
        (List.mergeSort_perm _ _).mem_iff.mp hl
      rcases List.mem_filter.mp hmem with ⟨hmem, hdue⟩
      have hdue : l.IsDue w.now := of_decide_eq_true hdue
      have hschedule := hlive.onSchedule l hmem
      have hnext : l.next = w.now := Nat.le_antisymm hdue.2 (hschedule.notLate hdue.1)
      rcases hschedule.next ⟨htask, hdue.1⟩ with ⟨start, hstart, htick⟩
      rw [hnext] at htick
      exact hapart start hstart htick
  · refine ⟨Or.inl hlive.tickTurn, fun _ => ?_, ?_⟩
    · exact hongoing.tickTurn hlength fun c hc => (hshown c hc).1
    · intro hfired'
      cases hfired.symm.trans hfired'

theorem tracking_tickTurn (hended : w.fired = true → w.loops = []) :
    Process.Upholds k.Tracking World.tickTurn w := by
  intro n made h
  cases hfired : w.fired with
  | false => exact h.tickTurn hfired
  | true =>
    -- No loop is left to tick.
    have hnothing : World.tickTurn w = { answer := (), state := w } := by
      refine tickTurn_of_ticked ?_
      rw [Ticked, hended hfired]
      exact nofun
    rw [hnothing]
    exact ⟨[], .nothing (Nat.le_refl _) rfl rfl h⟩

/-- The clock moves on after the ticks of an instant, if the token is not to be fired by then. -/
theorem tracking_tock (hticked : w.Ticked) (hnow : w.now < limit)
    (hundisturbed : ∀ c ∈ w.cancelAt, limit ≤ c) : Process.Upholds k.Tracking tock w := by
  intro n made h
  refine ⟨[], .nothing (Nat.le_succ _) rfl rfl ⟨?_, ?_, ?_⟩⟩
  · rcases h.holds with hlive | ⟨instant, hcut, hover⟩
    · rw [hlive.cancelAt_eq] at hundisturbed
      exact Or.inl (hlive.clock (Nat.le_succ _)
        (fun c hc => Nat.le_trans hnow (hundisturbed c hc)) hticked)
    · exact Or.inr ⟨instant, hcut, hover.of_eq rfl rfl rfl rfl⟩
  · exact fun hfired => (h.ongoing hfired).tock hticked
  · exact h.complete

/-! ## Turns, time and waits -/

/-- A cancellation that is due completes the checks, and there is nothing else for it to do. -/
theorem tracking_cancelTurn (w : World) : Process.Upholds k.Tracking cancelTurn w := by
  intro n made h
  have hstate : (cancelTurn w).state = if w.CancelDue then w.fire else w := rfl
  by_cases hdue : w.CancelDue
  · rw [if_pos hdue] at hstate
    rw [hstate]
    refine ⟨[], .nothing (Nat.le_refl _) rfl rfl ?_⟩
    rcases hdue with ⟨c, hc, hle⟩
    rcases h.holds with hlive | ⟨instant, -, hover⟩
    · rw [hlive.cancelAt_eq] at hc
      have hnow : w.now = c := Nat.le_antisymm (hlive.ahead c hc) hle
      refine ⟨Or.inr ⟨c, hc, ?_⟩, fun hfired => (nomatch hfired), fun _ instant hinstant => ?_⟩
      · rw [← hnow]
        exact hlive.fire
      · cases hinstant.symm.trans hc
        rw [← hnow]
        exact (h.ongoing hlive.notFired).complete
    · rw [hover.cancelAt_eq] at hc
      cases hc
  · rw [if_neg hdue] at hstate
    rw [hstate]
    exact ⟨[], .nothing (Nat.le_refl _) rfl rfl h⟩

theorem tracking_beginTurn (w : World) : Process.Upholds k.Tracking beginTurn w := by
  intro n made h
  refine ⟨[], .nothing (Nat.le_refl _) rfl
    (checks_of_inBackground (inBackground_beginTurn w)) ?_⟩
  rw [updates_beginTurn]
  refine ⟨?_, fun hfired => (h.ongoing hfired).begin, h.complete⟩
  rcases h.holds with hlive | ⟨instant, hcut, hover⟩
  · exact Or.inl hlive.begin
  · exact Or.inr ⟨instant, hcut, hover.of_eq rfl rfl rfl rfl⟩

theorem tracking_endTurn (hfired : w.fired = true) : Process.Upholds k.Tracking endTurn w := by
  intro n made h
  refine ⟨[], .nothing (Nat.le_refl _) rfl (checks_of_inBackground (inBackground_endTurn w)) ?_⟩
  rw [updates_endTurn]
  rcases h.holds.over hfired with ⟨instant, hcut, hover⟩
  refine ⟨Or.inr ⟨instant, hcut, hover.of_eq rfl rfl rfl rfl⟩, ?_, h.complete⟩
  intro hnot
  cases hfired.symm.trans hnot

theorem tracking_turn (w : World) : Process.Upholds k.Tracking World.turn w := by
  refine (tracking_cancelTurn w).bind ((tracking_beginTurn _).bind (.get_bind ?_))
  split
  · rename_i hfired
    exact tracking_endTurn hfired
  · rename_i hnot
    exact fun n made h => h.tickTurn (Bool.eq_false_iff.mpr hnot)

theorem tracking_passUntil (hpass : w.MayPass limit) :
    Process.Upholds k.Tracking (World.passUntil limit) w := by
  intro n made h
  have hpunctual : w.Punctual := by
    cases hfired : w.fired with
    | false => exact (h.ongoing hfired).notLate
    | true =>
      rw [Punctual, hpass.ended hfired]
      exact nofun
  exact upholds_passUntil (fun w _ hended => tracking_tickTurn hended)
    (fun w hticked hnow hundisturbed _ => tracking_tock hticked hnow hundisturbed)
    hpunctual hpass n made h

theorem tracking_awaitToken (w : World) : Process.Upholds k.Tracking World.awaitToken w :=
  upholds_awaitToken tracking_turn tracking_passUntil w

theorem tracking_step_sleep (span : Nat) (w : World) :
    Process.Upholds k.Tracking (World.step (.sleep span)) w :=
  upholds_step_sleep tracking_turn tracking_passUntil span w

/-! ## Starts -/

theorem tracking_attempts (hquiet : k.plan.transport.Reticent) (retries attempt : Nat)
    (w : World) : Process.Upholds k.Tracking (attempts attempt retries) w := by
  have hcalled (w : World) : k.Tracking w [] w.called :=
    tracking_of_agree ⟨rfl, rfl, rfl, rfl, rfl, rfl⟩ fun _ => ⟨rfl, rfl⟩
  have hup (w : World) : k.Tracking w w.plan.transport.upEvents w := by
    refine tracking_of_agree ⟨rfl, rfl, rfl, rfl, rfl, rfl⟩ fun hplan => ?_
    rw [hplan]
    exact ⟨hquiet.discreet.1, hquiet.up⟩
  have hreports (w : World) (events : List Event) (h : ∀ e ∈ events, e.OfAttempt) :
      k.Tracking w events w :=
    tracking_of_agree ⟨rfl, rfl, rfl, rfl, rfl, rfl⟩ fun _ =>
      ⟨updates_eq_zero fun e he => Event.isUpdate_of_ofAttempt (h e he),
        checks_eq_nil fun e he => Event.isCheck_of_ofAttempt (h e he)⟩
  exact upholds_attempts tracking_turn tracking_passUntil hcalled hup hreports retries attempt w

theorem checks_start_of_not_fired (hfired : w.fired = false) :
    checks (World.start w).events =
      checks (attempts 1 w.plan.retry.retries w.starting).events := by
  cases hanswer : (attempts 1 w.plan.retry.retries w.starting).answer with
  | error e =>
    rw [(start_of_error hfired hanswer).2.2, checks_cons rfl, checks_append]
    exact List.append_nil _
  | ok _ =>
    rw [(start_of_ok hfired hanswer).2.2, checks_cons rfl, checks_append]
    exact List.append_nil _

/-- A start adds what its attempts add. -/
theorem Tracks.attempts (h : k.Tracks n made w) (hquiet : k.plan.transport.Reticent) :
    let tried := World.attempts 1 w.plan.retry.retries w.starting
    ∃ later, k.Adds n made w tried.events later tried.state := by
  have hstarting : k.Tracks n made w.starting := h.of_agree ⟨rfl, rfl, rfl, rfl, rfl, rfl⟩
  rcases tracking_attempts hquiet _ 1 w.starting n made hstarting with ⟨later, hlater⟩
  exact ⟨later, hlater.now_le, hlater.statistics_eq, hlater.checks_eq, hlater.vouched,
    hlater.tracks⟩

/-- A start that fails leaves the schedule as it was. -/
theorem Tracks.start_of_error {e : SupervisorError} (h : k.Tracks n made w)
    (hquiet : k.plan.transport.Reticent) (hfired : w.fired = false)
    (herror : (World.start w).answer = .error e) :
    ∃ later, k.Adds n made w (World.start w).events later (World.start w).state := by
  rcases h.attempts hquiet with ⟨later, hlater⟩
  cases hanswer : (World.attempts 1 w.plan.retry.retries w.starting).answer with
  | ok _ => cases (World.start_of_ok hfired hanswer).1.symm.trans herror
  | error _ =>
    rw [(World.start_of_error hfired hanswer).2.1]
    refine ⟨later, hlater.now_le, hlater.statistics_eq, ?_, hlater.vouched, ?_⟩
    · rw [checks_start_of_not_fired hfired]
      exact hlater.checks_eq
    · rw [updates_start_of_not_fired hfired]
      exact hlater.tracks.of_agree ⟨rfl, rfl, rfl, rfl, rfl, rfl⟩

/-- A start that succeeds adds a schedule that begins when it does. -/
theorem Tracks.start_of_ok (h : k.Tracks n made w) (hquiet : k.plan.transport.Reticent)
    (hfired : w.fired = false) (hok : (World.start w).answer = .ok ()) :
    ∃ later, checks (World.start w).events = later.map Checkup.event ∧
      (∀ c ∈ later, k.Vouches w.device.statistics w.now (World.start w).state.now c) ∧
      Checkups.Ongoing k.plan.healthPeriod (k.started ++ [(World.start w).state.now])
        (made ++ later) (World.start w).state := by
  rcases h.attempts hquiet with ⟨later, hlater⟩
  have hstarting : k.Holds n w.starting := h.holds.of_agree ⟨rfl, rfl, rfl, rfl, rfl, rfl⟩
  cases hanswer : (World.attempts 1 w.plan.retry.retries w.starting).answer with
  | error _ => cases (World.start_of_error hfired hanswer).1.symm.trans hok
  | ok _ =>
    have hongoing := hlater.tracks.ongoing (fired_attempts _ hstarting hfired hanswer)
    rw [← hlater.tracks.holds.plan_eq] at hongoing
    rw [(World.start_of_ok hfired hanswer).2.1, ← hlater.tracks.holds.plan_eq]
    refine ⟨later, ?_, hlater.vouched, hongoing.spawnLoops.of_eq rfl rfl⟩
    rw [checks_start_of_not_fired hfired]
    exact hlater.checks_eq

end Ledger

end Fieldbus
