import Fieldbus.Proofs.Network.Slots

/-!
# The client limit

Before it is stopped, a network takes a client in as long as fewer connections that its last
listener accepted are live than it may serve.  `Accounted` says that the slots that are left and the
connections that hold one add up; whatever happens but a stop keeps it.
-/

namespace Fieldbus

/-- The client `peer` tries to connect in this step. -/
def NetworkStep.AttemptBy (peer : String) : NetworkStep → Prop
  | .connect p | .session p _ => p = peer
  | _ => False

namespace Network

open Process

variable {n n' : Network} {c : Connection} {peer : String}

/-! ## Histories -/

/-- The first network comes to be the second by allowed steps, by bytes that arrive from clients who
read all answers at once, and by the ends of connections on which nothing has arrived for too
long. -/
inductive Leads (allowed : NetworkStep → Prop) (first : Network) : Network → Prop
  | refl : Leads allowed first first
  | step {n : Network} {s : NetworkStep} (before : Leads allowed first n) (hs : allowed s) :
      Leads allowed first (Network.step s n).state
  | receive {n : Network} (before : Leads allowed first n) (peer : String) (bytes : List UInt8) :
      Leads allowed first (receive peer bytes n).state
  | expire {n : Network} (before : Leads allowed first n) (peer : String) :
      Leads allowed first (expire peer n).state

theorem Leads.mono {allowed allowed' : NetworkStep → Prop} {later : Network}
    (h : Leads allowed n later) (hmono : ∀ s, allowed s → allowed' s) : Leads allowed' n later := by
  induction h with
  | refl => exact .refl
  | step _ hs ih => exact ih.step (hmono _ hs)
  | receive _ peer bytes ih => exact ih.receive peer bytes
  | expire _ peer ih => exact ih.expire peer

theorem state_step_push (peer : String) (bytes : List UInt8) (n : Network) :
    (Network.step (.push peer bytes) n).state = (push peer bytes n).state := by
  simp only [Network.step, state_bind]
  cases (push peer bytes n).answer <;> rfl

theorem state_step_close (peer : String) (n : Network) :
    (Network.step (.close peer) n).state = (close peer n).state := by
  simp only [Network.step, state_bind]
  cases (close peer n).answer <;> rfl

theorem state_step_start (bound : Except BindError String) (n : Network) :
    (Network.step (.start bound) n).state = (start bound n).state := by
  cases bound <;> rfl

theorem state_rival (n : Network) : (rival n).state = n := by
  rfl

/-- What can become of a network in a moment: something that concerns one client, a new listener, or
something that concerns the device alone. -/
inductive Change (n : Network) : Network → Prop
  | client {peer : String} {n' : Network} (h : Concerns peer n n') : Change n n'
  | start (bound : Except BindError String) : Change n (start bound n).state
  | device (device : Device) : Change n { n with device }

theorem change_step {s : NetworkStep} (hrunning : n.stopped = false) (hs : s ≠ .stop) :
    Change n (Network.step s n).state := by
  cases s with
  | start bound => exact state_step_start bound n ▸ .start bound
  | stop => exact absurd rfl hs
  | rival => exact .client (Concerns.refl "" n)
  | connect peer => exact .client (concerns_connect hrunning peer)
  | push peer bytes => exact .client (state_step_push peer bytes n ▸ concerns_push peer bytes n)
  | exchange peer bytes => exact .client (concerns_exchange peer bytes n)
  | close peer => exact .client (state_step_close peer n ▸ concerns_close peer n)
  | session peer bytes => exact .client (concerns_session hrunning peer bytes)
  | device operations => exact .device _

/-! ## The books -/

/-- The slots of a network that was not stopped add up, and no listener has given more of them than
the clients that may be served. -/
structure Accounted (maxClients : Nat) (n : Network) : Prop where
  max_eq : n.maxClients = maxClients
  running : n.stopped = false
  distinct : n.PeersDistinct
  listeners : ∀ c ∈ n.connections, c.listener ≤ n.listener
  slots_le : n.freeSlots + n.occupied n.listener ≤ maxClients
  slots_eq : n.listening = true → n.freeSlots + n.occupied n.listener = maxClients
  limit : ∀ k, n.occupied k ≤ maxClients

theorem occupied_eq_zero {k : Nat} (h : ∀ c ∈ n.connections, c.listener ≠ k) :
    n.occupied k = 0 := by
  refine List.countP_eq_zero.mpr ?_
  intro c hc hholds
  exact h c hc (of_decide_eq_true hholds).2

namespace Accounted

variable {maxClients : Nat}

theorem fresh (device : Device) (maxClients : Nat) (reachable : Bool) :
    Accounted maxClients { device, maxClients, reachable } :=
  ⟨rfl, rfl, List.nodup_nil, fun _ hc => (nomatch hc), Nat.zero_le _, fun h => (nomatch h),
    fun _ => Nat.zero_le _⟩

theorem concerns (h : Accounted maxClients n) (hn : Concerns peer n n') :
    Accounted maxClients n' := by
  have hlistener := hn.listener_eq
  have hlistening : n'.listening = n.listening := congrArg Standing.listening hn.standing_eq
  have hoccupied := hn.occupied_eq h.distinct
  have hsum : n'.freeSlots + n'.occupied n'.listener = n.freeSlots + n.occupied n.listener := by
    have := hoccupied n.listener
    have := hn.slots_eq
    rw [hlistener]
    omega
  refine ⟨(congrArg Standing.maxClients hn.standing_eq).trans h.max_eq,
    (congrArg Standing.stopped hn.standing_eq).trans h.running, hn.distinct h.distinct,
    hn.listeners h.listeners, hsum ▸ h.slots_le, ?_, ?_⟩
  · intro hlistening'
    exact hsum.trans (h.slots_eq (hlistening.symm.trans hlistening'))
  · intro k
    by_cases hk : k = n'.listener
    · subst hk
      exact Nat.le_trans (Nat.le_add_left ..) (hsum ▸ h.slots_le)
    · -- Of an earlier listener the client holds no more than before.
      have := hoccupied k
      have := hn.elsewhere k (hlistener ▸ hk)
      have := h.limit k
      omega

/-- No connection was accepted by a listener that is yet to come. -/
theorem occupied_next (h : Accounted maxClients n) : n.occupied (n.listener + 1) = 0 := by
  refine occupied_eq_zero ?_
  intro c hc
  exact Nat.ne_of_lt (Nat.lt_succ_of_le (h.listeners c hc))

theorem change (h : Accounted maxClients n) (hn : Change n n') : Accounted maxClients n' := by
  cases hn with
  | client hn => exact h.concerns hn
  | start bound =>
    cases bound with
    | error e => exact h
    | ok address =>
      have hsum : n.maxClients + n.occupied (n.listener + 1) = maxClients := by
        rw [h.occupied_next, Nat.add_zero, h.max_eq]
      exact ⟨h.max_eq, h.running, h.distinct, fun c hc => Nat.le_succ_of_le (h.listeners c hc),
        Nat.le_of_eq hsum, fun _ => hsum, h.limit⟩
  | device => exact ⟨h.max_eq, h.running, h.distinct, h.listeners, h.slots_le, h.slots_eq, h.limit⟩

theorem leads {later : Network} (h : Accounted maxClients n) (hlater : Leads (· ≠ .stop) n later) :
    Accounted maxClients later := by
  induction hlater with
  | refl => exact h
  | step _ hs ih => exact ih.change (change_step ih.running hs)
  | receive _ peer bytes ih => exact ih.concerns (concerns_receive peer bytes _)
  | expire _ peer ih => exact ih.concerns (concerns_expire peer _)

/-- A slot is left exactly when fewer clients than may be served have one. -/
theorem room_iff (h : Accounted maxClients n) (hlistening : n.listening = true) :
    0 < n.freeSlots ↔ n.occupied n.listener < maxClients := by
  have := h.slots_eq hlistening
  omega

end Accounted

end Network

end Fieldbus
