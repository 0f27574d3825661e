import Fieldbus.Proofs.Device.Attempts
import Fieldbus.Proofs.Supervisor.Passage
import Fieldbus.Supervisor.Lifecycle

/-!
# Starting

How a start ends follows from the policy, the transport, and the instant at which the token is
fired.  A wait of the main task is quiet if the token is not fired before its end, and cut if it is;
so is an attempt, and so is a row of attempts.
-/

namespace Fieldbus

namespace RetryPolicy

/-- The most attempts that are made. -/
def mostAttempts (p : RetryPolicy) : Nat :=
  max p.maxAttempts 1

theorem mostAttempts_eq (p : RetryPolicy) : p.mostAttempts = p.retries + 1 := by
  rw [mostAttempts, retries]
  omega

end RetryPolicy

namespace World

variable {attempt : Nat} {w : World}

/-! ## Pauses -/

theorem pause_of_pos {span : Nat} (hspan : 0 < span) (w : World) :
    pause span w = sleepUnlessFired (w.now + span) w := by
  unfold pause
  rw [if_neg (Nat.ne_of_gt hspan)]
  rfl

theorem pause_of_quiet {span : Nat} (h : w.QuietUntil (w.now + span)) :
    (pause span w).answer = false ∧
      (pause span w).state.control = { w.control with now := w.now + span } := by
  cases span with
  | zero => exact ⟨rfl, rfl⟩
  | succ span =>
    rw [pause_of_pos (Nat.succ_pos span)]
    exact sleepUnlessFired_of_quiet h (Nat.lt_add_of_pos_right (Nat.succ_pos span))

theorem pause_of_cut {span c : Nat} (h : w.CutAt c) (hcut : c < w.now + span) :
    (pause span w).answer = true ∧
      (pause span w).state.control =
        { w.control with now := c, fired := true, cancelAt := none } := by
  have hspan : 0 < span := Nat.lt_add_right_iff_pos.mp (Nat.lt_of_le_of_lt h.ahead hcut)
  rw [pause_of_pos hspan]
  exact sleepUnlessFired_of_cut h hcut

/-! ## One attempt -/

/-- How many of the coming starts of the transport fail. -/
def failuresLeft (w : World) : Nat :=
  w.plan.transport.failures - w.starts

theorem state_attemptStart (attempt : Nat) (w : World) :
    (attemptStart attempt w).state = (pause w.plan.transport.startDelay w.called).state := by
  have hstate : (attemptStart attempt w).state = (callStart w).state := rfl
  rw [hstate]
  unfold callStart
  simp only [Process.state_bind, Process.answer_get, Process.state_get]
  split
  · rfl
  · split
    · rfl
    · rfl

/-- An attempt that is not cancelled fails with the error of the start that it is. -/
theorem answer_attemptStart (attempt : Nat) (w : World) :
    (attemptStart attempt w).answer =
      if (pause w.plan.transport.startDelay w.called).answer then .cancelled
      else if w.starts < w.plan.transport.failures then
        .failed (w.plan.transport.errorOf (w.starts + 1))
      else .up := by
  have hanswer : (attemptStart attempt w).answer = (callStart w).answer := rfl
  rw [hanswer]
  unfold callStart
  simp only [Process.answer_bind, Process.answer_get, Process.state_get]
  split
  · rename_i hcut
    exact (if_pos hcut).symm
  · rename_i hquiet
    refine Eq.trans ?_ (if_neg hquiet).symm
    split
    · rename_i hfails
      exact (if_pos hfails).symm
    · rename_i hworks
      exact (if_neg hworks).symm

/-- An attempt that is quiet fails as long as starts of the transport fail. -/
theorem attemptStart_of_quiet (attempt : Nat)
    (h : w.QuietUntil (w.now + w.plan.transport.startDelay)) :
    (attemptStart attempt w).answer =
        (if w.failuresLeft = 0 then .up
        else .failed (w.plan.transport.errorOf (w.starts + 1))) ∧
      (attemptStart attempt w).state.control =
        { w.control with
          now := w.now + w.plan.transport.startDelay
          starts := w.starts + 1 } := by
  have hcalled : w.called.QuietUntil (w.now + w.plan.transport.startDelay) := h.of_eq rfl rfl
  rcases pause_of_quiet hcalled with ⟨hanswer, hcontrol⟩
  refine ⟨?_, ?_⟩
  · rw [answer_attemptStart, hanswer, if_neg Bool.false_ne_true]
    by_cases hworks : w.failuresLeft = 0
    · rw [if_pos hworks, if_neg (Nat.not_lt.mpr (Nat.le_of_sub_eq_zero hworks))]
    · rw [if_neg hworks, if_pos (Nat.lt_of_sub_ne_zero hworks)]
  · rw [state_attemptStart, hcontrol]
    rfl

/-- An attempt that is cut ends then, but it has been made. -/
theorem attemptStart_of_cut {c : Nat} (attempt : Nat) (h : w.CutAt c)
    (hcut : c < w.now + w.plan.transport.startDelay) :
    (attemptStart attempt w).answer = .cancelled ∧
      (attemptStart attempt w).state.control =
        { w.control with
          now := c
          fired := true
          cancelAt := none
          starts := w.starts + 1 } := by
  have hcalled : w.called.CutAt c := h.of_eq rfl rfl h.ahead
  rcases pause_of_cut hcalled hcut with ⟨hanswer, hcontrol⟩
  refine ⟨?_, ?_⟩
  · rw [answer_attemptStart, hanswer]
    rfl
  · rw [state_attemptStart, hcontrol]
    rfl

/-! ## Rows of attempts -/

theorem attempts_zero (attempt : Nat) :
    attempts attempt 0 = (do
      match ← attemptStart attempt with
      | .up => return .ok ()
      | .cancelled => return .error .cancelled
      | .failed reason => return .error (.startFailed attempt reason)) := by
  rfl

theorem attempts_succ (attempt retries : Nat) :
    attempts attempt (retries + 1) = (do
      match ← attemptStart attempt with
      | .up => return .ok ()
      | .cancelled => return .error .cancelled
      | .failed _ =>
        if ← pause (← get).plan.retry.delay then return .error .cancelled
        else attempts (attempt + 1) retries) := by
  rfl

theorem attempts_of_up (retries : Nat) (h : (attemptStart attempt w).answer = .up) :
    (attempts attempt retries w).answer = .ok () ∧
      (attempts attempt retries w).state = (attemptStart attempt w).state := by
  cases retries with
  | zero =>
    simp only [attempts_zero, Process.answer_bind, Process.state_bind, h]
    exact ⟨rfl, rfl⟩
  | succ retries =>
    simp only [attempts_succ, Process.answer_bind, Process.state_bind, h]
    exact ⟨rfl, rfl⟩

theorem attempts_of_cancelled (retries : Nat)
    (h : (attemptStart attempt w).answer = .cancelled) :
    (attempts attempt retries w).answer = .error .cancelled ∧
      (attempts attempt retries w).state = (attemptStart attempt w).state := by
  cases retries with
  | zero =>
    simp only [attempts_zero, Process.answer_bind, Process.state_bind, h]
    exact ⟨rfl, rfl⟩
  | succ retries =>
    simp only [attempts_succ, Process.answer_bind, Process.state_bind, h]
    exact ⟨rfl, rfl⟩

/-- The error of a row is that of its last attempt. -/
theorem attempts_zero_of_failed {reason : String}
    (h : (attemptStart attempt w).answer = .failed reason) :
    (attempts attempt 0 w).answer = .error (.startFailed attempt reason) ∧
      (attempts attempt 0 w).state = (attemptStart attempt w).state := by
  simp only [attempts_zero, Process.answer_bind, Process.state_bind, h]
  exact ⟨rfl, rfl⟩

theorem attempts_succ_of_cut (retries : Nat) {failed : World} {reason : String}
    (h : (attemptStart attempt w).answer = .failed reason)
    (hstate : (attemptStart attempt w).state = failed)
    (hcut : (pause failed.plan.retry.delay failed).answer = true) :
    (attempts attempt (retries + 1) w).answer = .error .cancelled ∧
      (attempts attempt (retries + 1) w).state = (pause failed.plan.retry.delay failed).state := by
  simp only [attempts_succ, Process.answer_bind, Process.state_bind, h, hstate, Process.answer_get,
    Process.state_get, hcut, if_true]
  exact ⟨rfl, rfl⟩

theorem attempts_succ_of_quiet (retries : Nat) {failed : World} {reason : String}
    (h : (attemptStart attempt w).answer = .failed reason)
    (hstate : (attemptStart attempt w).state = failed)
    (hquiet : (pause failed.plan.retry.delay failed).answer = false) :
    (attempts attempt (retries + 1) w).answer =
        (attempts (attempt + 1) retries (pause failed.plan.retry.delay failed).state).answer ∧
      (attempts attempt (retries + 1) w).state =
        (attempts (attempt + 1) retries (pause failed.plan.retry.delay failed).state).state := by
  refine ⟨?_, ?_⟩
  · simp only [attempts_succ, Process.answer_bind, h, hstate, Process.answer_get,
      Process.state_get, hquiet, Bool.false_eq_true, if_false]
  · simp only [attempts_succ, Process.state_bind, h, hstate, Process.answer_get,
      Process.state_get, hquiet, Bool.false_eq_true, if_false]

/-- When the attempt after `n` others begins, if all of them fail and none is cut. -/
def attemptAt (w : World) (n : Nat) : Nat :=
  w.now + n * (w.plan.transport.startDelay + w.plan.retry.delay)

theorem attemptAt_zero (w : World) : w.attemptAt 0 = w.now := by
  simp [attemptAt]

theorem attemptAt_one (w : World) :
    w.attemptAt 1 = w.now + w.plan.transport.startDelay + w.plan.retry.delay := by
  simp [attemptAt, Nat.add_assoc]

theorem le_attemptAt_one (w : World) {c : Nat}
    (h : c < w.now + w.plan.transport.startDelay) : c ≤ w.attemptAt 1 := by
  rw [attemptAt_one]
  exact Nat.le_trans (Nat.le_of_lt h) (Nat.le_add_right ..)

theorem attemptAt_mono (w : World) {m n : Nat} (h : m ≤ n) : w.attemptAt m ≤ w.attemptAt n := by
  exact Nat.add_le_add_left (Nat.mul_le_mul_right _ h) w.now

/-- The second world is the first at the beginning of the next attempt. -/
def NextAttempt (w next : World) : Prop :=
  next.control = { w.control with now := w.attemptAt 1, starts := w.starts + 1 }

namespace NextAttempt

variable {next : World}

theorem plan_eq (h : w.NextAttempt next) : next.plan = w.plan :=
  congrArg Control.plan h

theorem attemptAt_eq (h : w.NextAttempt next) (n : Nat) :
    next.attemptAt n = w.attemptAt (n + 1) := by
  have hnow : next.now = w.attemptAt 1 := congrArg Control.now h
  rw [attemptAt, hnow, h.plan_eq, attemptAt, attemptAt, Nat.add_assoc, ← Nat.add_mul,
    Nat.add_comm 1 n]

theorem failuresLeft_eq (h : w.NextAttempt next) : next.failuresLeft = w.failuresLeft - 1 := by
  have hstarts : next.starts = w.starts + 1 := congrArg Control.starts h
  rw [failuresLeft, hstarts, h.plan_eq, failuresLeft]
  omega

end NextAttempt

/-- The first attempt of a row fails quietly, and so does the pause after it. -/
theorem attempts_succ_of_failure (attempt retries : Nat) (h : w.QuietUntil (w.attemptAt 1))
    (hfails : w.failuresLeft ≠ 0) :
    ∃ next, w.NextAttempt next ∧
      (attempts attempt (retries + 1) w).answer = (attempts (attempt + 1) retries next).answer ∧
      (attempts attempt (retries + 1) w).state = (attempts (attempt + 1) retries next).state := by
  rw [attemptAt_one] at h
  rcases attemptStart_of_quiet attempt (h.mono (Nat.le_add_right ..)) with ⟨hanswer, hcontrol⟩
  rw [if_neg hfails] at hanswer
  let failed : World := (attemptStart attempt w).state
  have hplan : failed.plan = w.plan := congrArg Control.plan hcontrol
  have hnow : failed.now = w.now + w.plan.transport.startDelay := congrArg Control.now hcontrol
  have hquiet : failed.QuietUntil (failed.now + failed.plan.retry.delay) := by
    rw [hnow, hplan]
    exact h.of_eq (congrArg Control.fired hcontrol) (congrArg Control.cancelAt hcontrol)
  rcases pause_of_quiet hquiet with ⟨hwaited, hcontrol'⟩
  refine ⟨_, ?_, attempts_succ_of_quiet retries hanswer rfl hwaited⟩
  rw [NextAttempt, hcontrol', hcontrol, hnow, hplan, ← attemptAt_one]

theorem attempts_of_success (attempt retries : Nat)
    (h : w.QuietUntil (w.now + w.plan.transport.startDelay)) (hworks : w.failuresLeft = 0) :
    (attempts attempt retries w).answer = .ok () ∧
      (attempts attempt retries w).state.control =
        { w.control with
          now := w.now + w.plan.transport.startDelay
          starts := w.starts + 1 } := by
  rcases attemptStart_of_quiet attempt h with ⟨hanswer, hcontrol⟩
  rw [if_pos hworks] at hanswer
  rcases attempts_of_up retries hanswer with ⟨hok, hstate⟩
  exact ⟨hok, by rw [hstate, hcontrol]⟩

/-- A row of attempts that is not cut ends with the first that does not fail, or with the error of
the last. -/
theorem attempts_of_quiet (retries : Nat) : ∀ (attempt : Nat) {w : World},
    w.QuietUntil
      (w.attemptAt (min retries w.failuresLeft) + w.plan.transport.startDelay) →
    (attempts attempt retries w).answer =
        (if w.failuresLeft ≤ retries then .ok ()
        else .error
          (.startFailed (attempt + retries)
            (w.plan.transport.errorOf (w.starts + (retries + 1))))) ∧
      (attempts attempt retries w).state.control =
        { w.control with
          now := w.attemptAt (min retries w.failuresLeft) + w.plan.transport.startDelay
          starts := w.starts + (min retries w.failuresLeft + 1) } := by
  induction retries with
  | zero =>
    -- The only attempt is the last.
    intro attempt w hquiet
    rw [Nat.zero_min, attemptAt_zero] at hquiet ⊢
    by_cases hworks : w.failuresLeft = 0
    · rw [if_pos (Nat.le_of_eq hworks)]
      exact attempts_of_success _ _ hquiet hworks
    · rcases attemptStart_of_quiet attempt hquiet with ⟨hanswer, hcontrol⟩
      rw [if_neg hworks] at hanswer
      rcases attempts_zero_of_failed hanswer with ⟨herror, hstate⟩
      have hmore : ¬ w.failuresLeft ≤ 0 := fun hle => hworks (Nat.le_zero.mp hle)
      rw [if_neg hmore, herror, hstate, hcontrol]
      exact ⟨rfl, rfl⟩
  | succ retries ih =>
    intro attempt w hquiet
    by_cases hworks : w.failuresLeft = 0
    · rw [hworks, Nat.min_zero, attemptAt_zero] at hquiet ⊢
      rw [if_pos (Nat.zero_le _)]
      exact attempts_of_success _ _ hquiet hworks
    · -- One retry and one failure are used up, and the rest is a row from the next attempt on.
      have hcount : min (retries + 1) w.failuresLeft = min retries (w.failuresLeft - 1) + 1 := by
        omega
      rw [hcount] at hquiet ⊢
      have hfirst : w.attemptAt 1 ≤
          w.attemptAt (min retries (w.failuresLeft - 1) + 1) + w.plan.transport.startDelay :=
        calc
          w.attemptAt 1 ≤ w.attemptAt (min retries (w.failuresLeft - 1) + 1) :=
            w.attemptAt_mono (Nat.le_add_left ..)
          _ ≤ w.attemptAt (min retries (w.failuresLeft - 1) + 1) + w.plan.transport.startDelay :=
            Nat.le_add_right ..
      rcases attempts_succ_of_failure attempt retries (hquiet.mono hfirst) hworks
        with ⟨next, hnext, hanswer, hstate⟩
      have hstarts : next.starts = w.starts + 1 := congrArg Control.starts hnext
      have hrow := ih (attempt + 1) (w := next)
      rw [hnext.attemptAt_eq, hnext.failuresLeft_eq, hnext.plan_eq] at hrow
      have hquiet' := hquiet.of_eq (congrArg Control.fired hnext) (congrArg Control.cancelAt hnext)
      rcases hrow hquiet' with ⟨hanswer', hcontrol'⟩
      refine ⟨?_, ?_⟩
      · have hiff : w.failuresLeft - 1 ≤ retries ↔ w.failuresLeft ≤ retries + 1 := by omega
        have hlast : next.starts + (retries + 1) = w.starts + (retries + 1 + 1) := by omega
        rw [hanswer, hanswer', hlast, Nat.add_right_comm]
        simp only [hiff, Nat.add_assoc]
      · rw [hstate, hcontrol', hstarts, hnext, Nat.add_right_comm, Nat.add_assoc]

/-! ## Rows that are cut -/

/-- How many of the first `count` attempts begin before an instant, if none is cut. -/
def begunBefore (w : World) (count c : Nat) : Nat :=
  (List.range count).countP fun n => w.attemptAt n < c

theorem begunBefore_succ {c : Nat} (count : Nat) (hnow : w.now < c) :
    w.begunBefore (count + 1) c =
      (List.range count).countP (fun n => w.attemptAt (n + 1) < c) + 1 := by
  have hfirst : w.attemptAt 0 < c := by
    rw [attemptAt_zero]
    exact hnow
  -- The first of the range is counted, and the others are the range before it moved by one.
  rw [begunBefore, List.range_succ_eq_map, List.countP_cons, List.countP_map,
    if_pos (decide_eq_true hfirst)]
  rfl

/-- Before the second attempt begins, only the first has begun. -/
theorem begunBefore_eq_one {c : Nat} (count : Nat) (hnow : w.now < c) (hc : c ≤ w.attemptAt 1) :
    w.begunBefore (count + 1) c = 1 := by
  have hnone : (List.range count).countP (fun n => w.attemptAt (n + 1) < c) = 0 := by
    rw [List.countP_eq_zero]
    intro n hn hbegun
    have hlate : w.attemptAt 1 ≤ w.attemptAt (n + 1) := w.attemptAt_mono (Nat.le_add_left 1 n)
    exact Nat.not_lt.mpr (Nat.le_trans hc hlate) (of_decide_eq_true hbegun)
  rw [begunBefore_succ count hnow, hnone]

theorem NextAttempt.begunBefore_eq {next : World} {c : Nat} (h : w.NextAttempt next) (count : Nat)
    (hnow : w.now < c) : w.begunBefore (count + 1) c = next.begunBefore count c + 1 := by
  rw [begunBefore_succ count hnow, begunBefore]
  simp only [h.attemptAt_eq]

theorem attempts_of_cut_attempt (attempt retries : Nat) {c : Nat} (h : w.CutAt c)
    (hcut : c < w.now + w.plan.transport.startDelay) :
    (attempts attempt retries w).answer = .error .cancelled ∧
      (attempts attempt retries w).state.control =
        { w.control with now := c, fired := true, cancelAt := none, starts := w.starts + 1 } := by
  rcases attemptStart_of_cut attempt h hcut with ⟨hanswer, hcontrol⟩
  rcases attempts_of_cancelled retries hanswer with ⟨herror, hstate⟩
  exact ⟨herror, by rw [hstate, hcontrol]⟩

/-- A row of attempts is cut in the pause after the first, which fails. -/
theorem attempts_succ_of_cut_pause (attempt retries : Nat) {c : Nat} (h : w.CutAt c)
    (hfails : w.failuresLeft ≠ 0) (hattempt : w.now + w.plan.transport.startDelay ≤ c)
    (hcut : c < w.attemptAt 1) :
    (attempts attempt (retries + 1) w).answer = .error .cancelled ∧
      (attempts attempt (retries + 1) w).state.control =
        { w.control with now := c, fired := true, cancelAt := none, starts := w.starts + 1 } := by
  rcases attemptStart_of_quiet attempt (h.quietUntil hattempt) with ⟨hanswer, hcontrol⟩
  rw [if_neg hfails] at hanswer
  let failed : World := (attemptStart attempt w).state
  have hplan : failed.plan = w.plan := congrArg Control.plan hcontrol
  have hnow : failed.now = w.now + w.plan.transport.startDelay := congrArg Control.now hcontrol
  have hfailed : failed.CutAt c :=
    h.of_eq (congrArg Control.fired hcontrol) (congrArg Control.cancelAt hcontrol)
      (Nat.le_trans (Nat.le_of_eq hnow) hattempt)
  have hcut' : c < failed.now + failed.plan.retry.delay := by
    rw [hnow, hplan, ← attemptAt_one]
    exact hcut
  rcases pause_of_cut hfailed hcut' with ⟨hwaited, hcontrol'⟩
  rcases attempts_succ_of_cut retries hanswer rfl hwaited with ⟨herror, hstate⟩
  exact ⟨herror, by rw [hstate, hcontrol', hcontrol]⟩

/-- A row of attempts that is cut ends then, with the attempts that have begun. -/
theorem attempts_of_cut (retries : Nat) : ∀ (attempt : Nat) {c : Nat} {w : World}, w.CutAt c →
    w.now < c → c < w.attemptAt (min retries w.failuresLeft) + w.plan.transport.startDelay →
    (∀ n ≤ min retries w.failuresLeft, c ≠ w.attemptAt n) →
    (attempts attempt retries w).answer = .error .cancelled ∧
      (attempts attempt retries w).state.control =
        { w.control with
          now := c
          fired := true
          cancelAt := none
          starts := w.starts + w.begunBefore (min retries w.failuresLeft + 1) c } := by
  induction retries with
  | zero =>
    intro attempt c w hc hnow hend hapart
    rw [Nat.zero_min, attemptAt_zero] at hend
    rw [begunBefore_eq_one _ hnow (w.le_attemptAt_one hend)]
    exact attempts_of_cut_attempt _ _ hc hend
  | succ retries ih =>
    intro attempt c w hc hnow hend hapart
    -- The cut comes in the first attempt, in the pause after it, or later.
    by_cases hattempt : c < w.now + w.plan.transport.startDelay
    · rw [begunBefore_eq_one _ hnow (w.le_attemptAt_one hattempt)]
      exact attempts_of_cut_attempt _ _ hc hattempt
    · have hfails : w.failuresLeft ≠ 0 := by
        intro hworks
        rw [hworks, Nat.min_zero, attemptAt_zero] at hend
        exact hattempt hend
      by_cases hpause : c < w.attemptAt 1
      · rw [begunBefore_eq_one _ hnow (Nat.le_of_lt hpause)]
        exact attempts_succ_of_cut_pause _ _ hc hfails (Nat.not_lt.mp hattempt) hpause
      · -- The second attempt has begun by then, so that the row from it on is cut.
        have hcount : min (retries + 1) w.failuresLeft = min retries (w.failuresLeft - 1) + 1 := by
          omega
        rw [hcount] at hend hapart ⊢
        have hsecond : w.attemptAt 1 < c :=
          Nat.lt_of_le_of_ne (Nat.not_lt.mp hpause) (hapart 1 (Nat.le_add_left ..)).symm
        have hquiet : w.QuietUntil (w.attemptAt 1) := hc.quietUntil (Nat.le_of_lt hsecond)
        rcases attempts_succ_of_failure attempt retries hquiet hfails
          with ⟨next, hnext, hanswer, hstate⟩
        have hnow' : next.now = w.attemptAt 1 := congrArg Control.now hnext
        have hstarts : next.starts = w.starts + 1 := congrArg Control.starts hnext
        have hlater : next.now < c := Nat.lt_of_le_of_lt (Nat.le_of_eq hnow') hsecond
        have hc' : next.CutAt c :=
          hc.of_eq (congrArg Control.fired hnext) (congrArg Control.cancelAt hnext)
            (Nat.le_of_lt hlater)
        have hrow := ih (attempt + 1) hc' hlater
        rw [hnext.attemptAt_eq, hnext.failuresLeft_eq, hnext.plan_eq] at hrow
        have hapart' : ∀ n ≤ min retries (w.failuresLeft - 1), c ≠ next.attemptAt n := by
          intro n hn
          rw [hnext.attemptAt_eq]
          exact hapart (n + 1) (Nat.succ_le_succ hn)
        rcases hrow hend hapart' with ⟨herror, hcontrol⟩
        refine ⟨hanswer.trans herror, ?_⟩
        rw [hstate, hcontrol, hstarts, hnext, hnext.begunBefore_eq _ hnow, Nat.add_assoc,
          Nat.add_comm 1]

/-! ## Starts -/

/-- The world in which a start has begun. -/
def starting (w : World) : World :=
  { w with phase := .starting }

theorem start_eq :
    start = (do
      moveTo .starting
      let w ← get
      let result ←
        if w.fired then pure (.error .cancelled) else attempts 1 w.plan.retry.retries
      match result with
      | .error e =>
        moveTo .stopped
        return .error e
      | .ok () =>
        modify spawnLoops
        moveTo .running
        Process.report .started
        return .ok ()) := by
  rfl

/-- A start whose token has fired is cancelled before its first attempt. -/
theorem start_of_fired (hfired : w.fired = true) :
    (start w).answer = .error .cancelled ∧
      (start w).state = { w with phase := .stopped } ∧
      (start w).events = [.transition w.phase .starting, .transition .starting .stopped] := by
  have hstate : (moveTo .starting w).state = w.starting := rfl
  have hfired' : w.starting.fired = true := hfired
  rw [start_eq]
  simp only [Process.answer_bind, Process.state_bind, Process.events_bind, Process.answer_get,
    Process.state_get, Process.events_get, hstate, hfired', if_true, Process.answer_pure,
    Process.state_pure, true_and]
  exact ⟨rfl, rfl⟩

/-- A start whose row of attempts fails goes back to rest. -/
theorem start_of_error {e : SupervisorError} (hfired : w.fired = false)
    (herror : (attempts 1 w.plan.retry.retries w.starting).answer = .error e) :
    let row := attempts 1 w.plan.retry.retries w.starting
    (start w).answer = .error e ∧
      (start w).state = { row.state with phase := .stopped } ∧
      (start w).events = .transition w.phase .starting ::
        (row.events ++ [.transition row.state.phase .stopped]) := by
  have hstate : (moveTo .starting w).state = w.starting := rfl
  have hplan : w.starting.plan = w.plan := rfl
  have hfired' : w.starting.fired = false := hfired
  rw [start_eq]
  simp only [Process.answer_bind, Process.state_bind, Process.events_bind, Process.answer_get,
    Process.state_get, Process.events_get, hstate, hplan, hfired', Bool.false_eq_true, if_false,
    herror]
  exact ⟨rfl, rfl, rfl⟩

/-- A start whose row of attempts brings the transport up spawns the loops. -/
theorem start_of_ok (hfired : w.fired = false)
    (hok : (attempts 1 w.plan.retry.retries w.starting).answer = .ok ()) :
    let row := attempts 1 w.plan.retry.retries w.starting
    (start w).answer = .ok () ∧
      (start w).state = { spawnLoops row.state with phase := .running } ∧
      (start w).events = .transition w.phase .starting ::
        (row.events ++ [.transition row.state.phase .running, .started]) := by
  have hstate : (moveTo .starting w).state = w.starting := rfl
  have hplan : w.starting.plan = w.plan := rfl
  have hfired' : w.starting.fired = false := hfired
  rw [start_eq]
  simp only [Process.answer_bind, Process.state_bind, Process.events_bind, Process.answer_get,
    Process.state_get, Process.events_get, hstate, hplan, hfired', Bool.false_eq_true, if_false,
    hok]
  exact ⟨rfl, rfl, rfl⟩

/-- How many attempts a start makes that is not cut. -/
def attemptsMade (w : World) : Nat :=
  min w.plan.retry.mostAttempts (w.failuresLeft + 1)

/-- When a start ends that is not cut. -/
def startEnd (w : World) : Nat :=
  w.now + w.attemptsMade * w.plan.transport.startDelay +
    (w.attemptsMade - 1) * w.plan.retry.delay

theorem attemptsMade_eq (w : World) :
    w.attemptsMade = min w.plan.retry.retries w.failuresLeft + 1 := by
  rw [attemptsMade, RetryPolicy.mostAttempts_eq]
  omega

theorem startEnd_eq (w : World) :
    w.startEnd =
      w.attemptAt (min w.plan.retry.retries w.failuresLeft) + w.plan.transport.startDelay := by
  rw [startEnd, attemptsMade_eq, Nat.add_sub_cancel, attemptAt, Nat.mul_add, Nat.succ_mul]
  omega

end World

/-! ## The outcome -/

open World in
/-- A start whose token has fired is cancelled at once, without an attempt.  One whose token is
fired on the way is cancelled then, and the attempts that have begun by then have been made.  Any
other start makes all its attempts and ends after the last: well if the transport fails fewer times
than there are attempts, and else with the error of the last.  The pauses between attempts are those
of the policy, one fewer than it has attempts. -/
theorem start_outcome (w : World) :
    (w.fired = true →
      (start w).answer = .error .cancelled ∧
      (start w).state.now = w.now ∧
      (start w).state.phase = .stopped ∧
      (start w).state.starts = w.starts) ∧
    (∀ c : Nat, w.fired = false → w.cancelAt = some c → w.now < c → c < w.startEnd →
      (∀ n < w.attemptsMade, c ≠ w.attemptAt n) →
      (start w).answer = .error .cancelled ∧
      (start w).state.now = c ∧
      (start w).state.phase = .stopped ∧
      (start w).state.starts = w.starts + w.begunBefore w.attemptsMade c) ∧
    (w.fired = false → (∀ c ∈ w.cancelAt, w.startEnd < c) →
      (start w).state.now = w.startEnd ∧
      (start w).state.starts = w.starts + w.attemptsMade ∧
      if w.failuresLeft < w.plan.retry.mostAttempts then
        (start w).answer = .ok () ∧ (start w).state.phase = .running
      else
        (start w).answer =
          .error
            (.startFailed w.plan.retry.mostAttempts
              (w.plan.transport.errorOf (w.starts + w.attemptsMade))) ∧
        (start w).state.phase = .stopped) ∧
    ∀ count : Nat, w.plan.retry.mostAttempts - 1 ≤ count →
      w.plan.retry.delays count =
        List.replicate (w.plan.retry.mostAttempts - 1) w.plan.retry.delay := by
  refine ⟨?_, ?_, ?_, ?_⟩
  · -- The token has fired.
    intro hfired
    rcases start_of_fired hfired with ⟨hanswer, hstate, -⟩
    rw [hanswer, hstate]
    exact ⟨rfl, rfl, rfl, rfl⟩
  · -- The token is fired on the way.
    intro c hfired hc hnow hend hapart
    rw [startEnd_eq] at hend
    rw [attemptsMade_eq] at hapart ⊢
    have hapart' : ∀ n ≤ min w.plan.retry.retries w.failuresLeft, c ≠ w.attemptAt n := by
      intro n hn
      exact hapart n (Nat.lt_succ_of_le hn)
    have hcut : w.starting.CutAt c := ⟨hfired, hc, Nat.le_of_lt hnow⟩
    rcases attempts_of_cut w.plan.retry.retries 1 hcut hnow hend hapart' with ⟨herror, hrow⟩
    rcases start_of_error hfired herror with ⟨hanswer, hstate, -⟩
    rw [hanswer, hstate]
    exact ⟨rfl, congrArg Control.now hrow, rfl, congrArg Control.starts hrow⟩
  · -- The token is fired afterwards or never.
    intro hfired hquiet
    rw [attemptsMade_eq, startEnd_eq, RetryPolicy.mostAttempts_eq]
    rw [startEnd_eq] at hquiet
    have hquiet' : w.starting.QuietUntil
        (w.attemptAt (min w.plan.retry.retries w.failuresLeft) + w.plan.transport.startDelay) :=
      ⟨hfired, fun c hc => Nat.le_of_lt (hquiet c hc)⟩
    rcases attempts_of_quiet w.plan.retry.retries 1 hquiet' with ⟨hanswer, hrow⟩
    by_cases hfew : w.failuresLeft < w.plan.retry.retries + 1
    · have hok : (attempts 1 w.plan.retry.retries w.starting).answer = .ok () :=
        hanswer.trans (if_pos (Nat.le_of_lt_succ hfew))
      rcases start_of_ok hfired hok with ⟨hstart, hstate, -⟩
      rw [if_pos hfew, hstart, hstate]
      exact ⟨congrArg Control.now hrow, congrArg Control.starts hrow, rfl, rfl⟩
    · have herror : (attempts 1 w.plan.retry.retries w.starting).answer =
          .error
            (.startFailed (1 + w.plan.retry.retries)
              (w.plan.transport.errorOf (w.starts + (w.plan.retry.retries + 1)))) :=
        hanswer.trans (if_neg fun hle => hfew (Nat.lt_succ_of_le hle))
      rcases start_of_error hfired herror with ⟨hstart, hstate, -⟩
      have hall : min w.plan.retry.retries w.failuresLeft = w.plan.retry.retries := by omega
      rw [if_neg hfew, hstart, hstate]
      refine ⟨congrArg Control.now hrow, congrArg Control.starts hrow, ?_, rfl⟩
      rw [hall, Nat.add_comm w.plan.retry.retries 1]
  · -- The pauses of the policy.
    intro count hcount
    rw [RetryPolicy.mostAttempts_eq, Nat.add_sub_cancel] at hcount ⊢
    rw [RetryPolicy.delays, Nat.min_eq_right hcount]

/-- A transport that fails twice and takes ten milliseconds for each start, under a policy of three
attempts with pauses of a hundred. -/
def slowTransport (cancelAt : Option Nat) : World :=
  { plan :=
      { retry := { maxAttempts := 3, delay := 100 }
        transport := { failures := 2, startDelay := 10 } }
    device := fourCellDevice
    cancelAt }

/-- The second attempt begins at 110 and is cut at 115; without a cancellation the third is well. -/
theorem start_slowTransport :
    ((World.start (slowTransport (some 115))).answer = .error .cancelled ∧
      (World.start (slowTransport (some 115))).state.now = 115 ∧
      (World.start (slowTransport (some 115))).state.starts = 2) ∧
    (World.start (slowTransport none)).answer = .ok () ∧
      (World.start (slowTransport none)).state.now = 230 ∧
      (World.start (slowTransport none)).state.starts = 3 := by
  rcases start_outcome (slowTransport (some 115)) with ⟨-, hcut, -⟩
  rcases start_outcome (slowTransport none) with ⟨-, -, hquiet, -⟩
  rcases hcut 115 rfl rfl (by decide) (by decide) (by decide) with ⟨hanswer, hnow, -, hstarts⟩
  rcases hquiet rfl (by intro c hc; cases hc) with ⟨hnow', hstarts', hok⟩
  exact ⟨⟨hanswer, hnow, hstarts⟩, hok.1, hnow', hstarts'⟩

end Fieldbus
