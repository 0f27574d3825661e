import Fieldbus.Proofs.Device.Attempts
import Fieldbus.Proofs.Network.Limit

/-!
# What clients can count on

A client that was refused is served nothing until it tries again, and the end of a connection gives
back one slot of the listener that accepted it.  `ServesUpTo` collects what holds of a network at
any time before it is stopped; `serves_up_to_limit` proves it of every history.
-/

namespace Fieldbus

namespace Network

open Process

variable {n n' : Network} {c : Connection} {peer : String}

/-! ## Refused clients -/

/-- The client has no connection, or one that was ended and has nothing left to read. -/
def Barred (peer : String) (n : Network) : Prop :=
  ∀ c, n.find? peer = some c → c.live = false ∧ c.sent = []

theorem Barred.of_find?_eq (h : Barred peer n) (hsame : n'.find? peer = n.find? peer) :
    Barred peer n' := by
  intro c hc
  exact h c (hsame ▸ hc)

theorem Barred.put (hpeer : c.peer = peer) (hlive : c.live = false) (hsent : c.sent = []) :
    Barred peer (n.put c) := by
  subst hpeer
  intro c' hc'
  cases (find?_put_self n c).symm.trans hc'
  exact ⟨hlive, hsent⟩

theorem Barred.forget (n : Network) (peer : String) : Barred peer (n.forget peer) := by
  intro c hc
  cases (find?_forget n peer).symm.trans hc

/-- What a barred client sends is lost. -/
theorem Barred.push (h : Barred peer n) (bytes : List UInt8) :
    (∀ c, (Network.push peer bytes n).answer = some c → c.live = false ∧ c.sent = []) ∧
      (Network.push peer bytes n).state.device = n.device ∧
      Barred peer (Network.push peer bytes n).state := by
  cases hfind : n.find? peer with
  | none =>
    rcases push_of_none hfind bytes with ⟨hanswer, hstate⟩
    rw [hanswer, hstate]
    exact ⟨fun c hc => (nomatch hc), rfl, h⟩
  | some c =>
    rcases h c hfind with ⟨hlive, hsent⟩
    rcases push_of_some hfind bytes with ⟨hanswer, hstate⟩
    rw [hanswer, hstate, feed_of_not_live hlive]
    refine ⟨?_, rfl, .put (peer_of_find? hfind) hlive hsent⟩
    rintro c' ⟨⟩
    exact ⟨hlive, hsent⟩

/-- Nothing is to be read in an empty stream. -/
theorem scan_nil : Frame.scan [] = .waiting := by
  rfl

theorem Barred.exchange (h : Barred peer n) (bytes : List UInt8) :
    ((Network.exchange peer bytes n).answer = .ended ∨
        (Network.exchange peer bytes n).answer = .noConnection) ∧
      Barred peer (Network.exchange peer bytes n).state := by
  rcases h.push bytes with ⟨hconnection, -, hbarred⟩
  unfold Network.exchange
  simp only [answer_bind, state_bind]
  cases hanswer : (Network.push peer bytes n).answer with
  | none => exact ⟨Or.inr rfl, hbarred⟩
  | some c =>
    rcases hconnection c hanswer with ⟨hlive, hsent⟩
    simp only [hsent, scan_nil, hlive]
    exact ⟨Or.inl rfl, hbarred⟩

theorem Barred.receive (h : Barred peer n) (bytes : List UInt8) :
    (Network.receive peer bytes n).answer = ([], false) ∧
      Barred peer (Network.receive peer bytes n).state := by
  rcases h.push bytes with ⟨hconnection, -, hbarred⟩
  unfold Network.receive
  simp only [answer_bind, state_bind]
  cases hanswer : (Network.push peer bytes n).answer with
  | none => exact ⟨rfl, hbarred⟩
  | some c =>
    rcases hconnection c hanswer with ⟨hlive, hsent⟩
    have hpeer : c.peer = peer := peer_of_find? (find?_push hanswer)
    exact ⟨Prod.ext hsent hlive, .put hpeer hlive rfl⟩

theorem Barred.close (h : Barred peer n) :
    (Network.close peer n).answer.getD [] = [] ∧
      Barred peer (Network.close peer n).state := by
  unfold Network.close
  simp only [answer_bind, state_bind, answer_get, state_get]
  cases hfind : n.find? peer with
  | none => exact ⟨rfl, h⟩
  | some c =>
    rcases h c hfind with ⟨hlive, hsent⟩
    simp only [answer_bind, state_bind, hangUp_of_not_live hlive]
    exact ⟨hsent, .forget n peer⟩

theorem Barred.expire (h : Barred peer n) : (Network.expire peer n).state = n := by
  unfold Network.expire
  simp only [state_bind, answer_get, state_get]
  cases hfind : n.find? peer with
  | none => rfl
  | some c =>
    have hlive := (h c hfind).1
    simp only [hlive]
    rfl

/-- What another client does leaves a barred client barred. -/
theorem Barred.concerns {other : String} (h : Barred peer n) (hn : Concerns other n n')
    (hother : other ≠ peer) : Barred peer n' :=
  h.of_find?_eq (hn.find?_eq (Ne.symm hother))

theorem Barred.step {s : NetworkStep} (h : Barred peer n) (hrunning : n.stopped = false)
    (hs : s ≠ .stop ∧ ¬ s.AttemptBy peer) : Barred peer (Network.step s n).state := by
  rcases hs with ⟨hs, hattempt⟩
  cases s with
  | start bound =>
    rw [state_step_start]
    cases bound with
    | error e => exact h
    | ok address => exact h.of_find?_eq rfl
  | device _ => exact h.of_find?_eq rfl
  | stop => exact absurd rfl hs
  | rival => exact h.of_find?_eq (congrArg (find? · peer) (state_rival n))
  | connect other => exact h.concerns (concerns_connect hrunning other) hattempt
  | session other bytes => exact h.concerns (concerns_session hrunning other bytes) hattempt
  | push other bytes =>
    rw [state_step_push]
    by_cases hother : other = peer
    · subst hother
      exact (h.push bytes).2.2
    · exact h.concerns (concerns_push other bytes n) hother
  | exchange other bytes =>
    by_cases hother : other = peer
    · subst hother
      exact (h.exchange bytes).2
    · exact h.concerns (concerns_exchange other bytes n) hother
  | close other =>
    rw [state_step_close]
    by_cases hother : other = peer
    · subst hother
      exact h.close.2
    · exact h.concerns (concerns_close other n) hother

theorem Barred.leads {maxClients : Nat} {later : Network} (h : Barred peer n)
    (hbooks : Accounted maxClients n)
    (hlater : Leads (fun s => s ≠ .stop ∧ ¬ s.AttemptBy peer) n later) : Barred peer later := by
  induction hlater with
  | refl => exact h
  | step before hs ih =>
    exact ih.step (hbooks.leads (before.mono fun _ hs => hs.1)).running hs
  | receive _ other bytes ih =>
    by_cases hother : other = peer
    · subst hother
      exact (ih.receive bytes).2
    · exact ih.concerns (concerns_receive other bytes _) hother
  | expire _ other ih =>
    by_cases hother : other = peer
    · subst hother
      exact ih.expire.symm ▸ ih
    · exact ih.concerns (concerns_expire other _) hother

/-- A client who is served nothing: nothing that it sends reaches the device, and there is nothing
for it to read. -/
structure Unserved (peer : String) (n : Network) : Prop where
  device_eq : ∀ bytes, (Network.push peer bytes n).state.device = n.device
  exchange : ∀ bytes, (Network.exchange peer bytes n).answer = .ended ∨
    (Network.exchange peer bytes n).answer = .noConnection
  receive : ∀ bytes, (Network.receive peer bytes n).answer = ([], false)
  close : (Network.close peer n).answer.getD [] = []

theorem Barred.unserved (h : Barred peer n) : Unserved peer n :=
  ⟨fun bytes => (h.push bytes).2.1, fun bytes => (h.exchange bytes).1,
    fun bytes => (h.receive bytes).1, h.close.1⟩

/-! ## Clients that come and go -/

/-- A client does something, or its connection ends for want of bytes. -/
inductive Acts (peer : String) (n : Network) : Network → Prop
  | connect : Acts peer n (connect peer n).state
  | push (bytes : List UInt8) : Acts peer n (push peer bytes n).state
  | exchange (bytes : List UInt8) : Acts peer n (exchange peer bytes n).state
  | receive (bytes : List UInt8) : Acts peer n (receive peer bytes n).state
  | close : Acts peer n (close peer n).state
  | expire : Acts peer n (expire peer n).state
  | session (bytes : List UInt8) : Acts peer n (session peer bytes n).state

theorem Acts.concerns (h : Acts peer n n') (hrunning : n.stopped = false) :
    Concerns peer n n' := by
  cases h with
  | connect => exact concerns_connect hrunning peer
  | push bytes => exact concerns_push peer bytes n
  | exchange bytes => exact concerns_exchange peer bytes n
  | receive bytes => exact concerns_receive peer bytes n
  | close => exact concerns_close peer n
  | expire => exact concerns_expire peer n
  | session bytes => exact concerns_session hrunning peer bytes

/-- The client has no connection that is live. -/
def Gone (peer : String) (n : Network) : Prop :=
  ∀ c, n.find? peer = some c → c.live = false

theorem Gone.held_eq_zero (h : Gone peer n) (k : Nat) : n.held peer k = 0 := by
  cases hfind : n.find? peer with
  | none => exact held_of_none hfind k
  | some c =>
    rw [held_of_some hfind]
    exact Connection.slots_of_not_live (h c hfind) k

theorem Gone.of_none (hfind : n.find? peer = none) : Gone peer n := by
  intro c hc
  cases hfind.symm.trans hc

theorem Gone.of_some (hfind : n.find? peer = some c) (hlive : c.live = false) : Gone peer n := by
  intro c' hc'
  cases hfind.symm.trans hc'
  exact hlive

theorem Barred.gone (h : Barred peer n) : Gone peer n :=
  fun c hc => (h c hc).1

theorem gone_close (peer : String) (n : Network) : Gone peer (close peer n).state := by
  unfold close
  simp only [state_bind, answer_get, state_get]
  cases hfind : n.find? peer with
  | none => exact .of_none hfind
  | some c => exact .of_none (find?_forget _ peer)

theorem gone_expire (peer : String) (n : Network) : Gone peer (expire peer n).state := by
  unfold expire
  simp only [state_bind, answer_get, state_get]
  cases hfind : n.find? peer with
  | none => exact .of_none hfind
  | some c =>
    cases hlive : c.live with
    | true =>
      have hpeer : c.peer = peer := peer_of_find? hfind
      subst hpeer
      simp only [hlive, if_true]
      exact .of_some (find?_put_self _ { c with live := false, kept := [] }) rfl
    | false =>
      simp only [hlive, Bool.false_eq_true, if_false]
      exact .of_some hfind hlive

/-- What becomes of an attempt that finds a listener. -/
theorem find?_connect (hreachable : n.reachable = true) (hlistening : n.listening = true)
    (hstopped : n.stopped = false) (peer : String) :
    (connect peer n).state.find? peer = some (n.attempt peer) := by
  rcases connect_of_listening hreachable hlistening hstopped peer with ⟨-, n', hstate, -⟩
  rw [hstate]
  exact find?_put_self n' (n.attempt peer)

/-- A client that is refused is barred. -/
theorem barred_connect (hreachable : n.reachable = true) (hlistening : n.listening = true)
    (hstopped : n.stopped = false) (hfull : n.freeSlots = 0) (peer : String) :
    Barred peer (connect peer n).state := by
  have hfind := find?_connect hreachable hlistening hstopped peer
  have hlive : (n.attempt peer).live = false := decide_eq_false (hfull ▸ Nat.lt_irrefl 0)
  intro c hc
  cases hfind.symm.trans hc
  exact ⟨hlive, rfl⟩

theorem answer_session {accepted : Bool} (bytes : List UInt8)
    (hanswer : (connect peer n).answer = .ok accepted) :
    (session peer bytes n).answer = .ok (accepted,
      (close peer (push peer bytes (connect peer n).state).state).answer.getD []) := by
  unfold session
  simp only [answer_bind, hanswer]
  rfl

theorem gone_session {accepted : Bool} (bytes : List UInt8)
    (hanswer : (connect peer n).answer = .ok accepted) :
    Gone peer (session peer bytes n).state := by
  unfold session
  simp only [state_bind, hanswer]
  exact gone_close peer _

/-! ## The limit -/

/-- What holds of a network that serves at most `maxClients` clients of a listener at a time. -/
structure ServesUpTo (maxClients : Nat) (n : Network) : Prop where
  /-- Never are more connections live that one listener accepted. -/
  limit : ∀ k, n.occupied k ≤ maxClients
  /-- No slot is lost, and none is given twice. -/
  slots : n.listening = true → n.freeSlots + n.occupied n.listener = maxClients
  /-- An attempt succeeds exactly if fewer connections of the last listener are live. -/
  connect : n.reachable = true → n.listening = true → ∀ peer,
    (Network.connect peer n).answer = .ok (decide (n.occupied n.listener < maxClients))
  /-- A client that is taken in has one slot of the last listener instead of what it had. -/
  takes : n.reachable = true → n.listening = true → n.occupied n.listener < maxClients →
    ∀ peer k, (Network.connect peer n).state.occupied k + n.held peer k =
      n.occupied k + if k = n.listener then 1 else 0
  /-- A client that is refused changes nothing, apart from what it had, and is served nothing until
  it tries again. -/
  refuses : n.reachable = true → n.listening = true → ¬ n.occupied n.listener < maxClients →
    ∀ peer, Gone peer (Network.connect peer n).state ∧
      (Network.connect peer n).state.device = n.device ∧
      ∀ later, Leads (fun s => s ≠ .stop ∧ ¬ s.AttemptBy peer) (Network.connect peer n).state later →
        Unserved peer later
  /-- An attempt that is over at once leaves no slot taken. -/
  session : n.reachable = true → n.listening = true → ∀ peer bytes,
    Gone peer (Network.session peer bytes n).state ∧
      ∃ rest, (Network.session peer bytes n).answer =
          .ok (decide (n.occupied n.listener < maxClients), rest) ∧
        (¬ n.occupied n.listener < maxClients → rest = [])
  /-- The end of a connection frees the one slot that it held, of the listener that accepted it. -/
  frees : ∀ {peer : String} {n' : Network}, Acts peer n n' → Gone peer n' →
    (∀ k, n'.occupied k + n.held peer k = n.occupied k) ∧
      n'.freeSlots = n.freeSlots + n.held peer n.listener
  /-- A connection ends when its client closes it and when nothing has arrived for too long. -/
  ends : ∀ peer, Gone peer (close peer n).state ∧ Gone peer (expire peer n).state
  /-- What one client does is nothing to the connections of the others. -/
  others : ∀ {peer : String} {n' : Network}, Acts peer n n' →
    ∀ other ≠ peer, n'.find? other = n.find? other
  /-- A connection that is live is served, whichever listener accepted it. -/
  serves : ∀ {peer : String} {c : Connection}, n.find? peer = some c → c.live = true → ∀ bytes,
    let served := n.device.serveBytes (c.kept ++ bytes)
    (push peer bytes n).state.device = served.state ∧
      ∃ c', (push peer bytes n).state.find? peer = some c' ∧ c'.listener = c.listener ∧
        c'.sent = c.sent ++ served.answer.sent ∧ (c'.live = true ↔ served.answer.breach = none)
  /-- A new listener has all of its slots, while the connections of the others stay. -/
  replaces : ∀ address, let later := (start (.ok address) n).state
    (start (.ok address) n).answer = .ok () ∧ later.listening = true ∧
      later.localAddress = some address ∧ later.listener = n.listener + 1 ∧
      later.occupied (n.listener + 1) = 0 ∧ later.freeSlots = maxClients ∧
      later.connections = n.connections ∧ later.device = n.device
  /-- A listener that cannot be bound replaces nothing: the last one goes on. -/
  keeps : ∀ e, (start (.error e) n).answer = .error e ∧ (start (.error e) n).state = n ∧
    (start (.error e) n).events = []
  /-- Another listener cannot have the address, and its attempt changes nothing. -/
  rival : (n.listening = true → (Network.rival n).answer = .notBound .inUse) ∧
    (Network.rival n).state = n

theorem Accounted.freeSlots_eq_zero {maxClients : Nat} (h : Accounted maxClients n)
    (hlistening : n.listening = true) (hfull : ¬ n.occupied n.listener < maxClients) :
    n.freeSlots = 0 :=
  Nat.eq_zero_of_not_pos (mt (h.room_iff hlistening).mp hfull)

theorem Accounted.servesUpTo {maxClients : Nat} (h : Accounted maxClients n) :
    ServesUpTo maxClients n where
  limit := h.limit
  slots := h.slots_eq
  connect := by
    intro hreachable hlistening peer
    rw [(connect_of_listening hreachable hlistening h.running peer).1]
    simp only [h.room_iff hlistening]
  takes := by
    intro hreachable hlistening hroom peer k
    have hfind := find?_connect hreachable hlistening h.running peer
    have hconcerns : Concerns peer n (Network.connect peer n).state :=
      concerns_connect h.running peer
    have hlive : (n.attempt peer).live = true :=
      decide_eq_true ((h.room_iff hlistening).mpr hroom)
    have hslots : (n.attempt peer).slots k = if k = n.listener then 1 else 0 := by
      split
      · rename_i hk
        subst hk
        exact Connection.slots_self hlive
      · rename_i hk
        exact Connection.slots_of_ne hk
    rw [hconcerns.occupied_eq h.distinct k, held_of_some hfind, hslots]
  refuses := by
    intro hreachable hlistening hfull peer
    have hbarred := barred_connect hreachable hlistening h.running
      (h.freeSlots_eq_zero hlistening hfull) peer
    have hbooks : Accounted maxClients (Network.connect peer n).state :=
      h.concerns (concerns_connect h.running peer)
    rcases connect_of_listening hreachable hlistening h.running peer
      with ⟨-, n', hstate, -, -, hdevice, -⟩
    refine ⟨hbarred.gone, ?_, ?_⟩
    · rw [hstate]
      exact hdevice
    · intro later hlater
      exact (hbarred.leads hbooks hlater).unserved
  session := by
    intro hreachable hlistening peer bytes
    rcases connect_of_listening hreachable hlistening h.running peer with ⟨hanswer, -⟩
    have hresult := answer_session bytes hanswer
    simp only [h.room_iff hlistening] at hresult
    refine ⟨gone_session bytes hanswer, _, hresult, ?_⟩
    intro hfull
    have hbarred := barred_connect hreachable hlistening h.running
      (h.freeSlots_eq_zero hlistening hfull) peer
    exact (hbarred.push bytes).2.2.close.1
  frees := by
    intro peer n' hacts hgone
    have hconcerns := hacts.concerns h.running
    refine ⟨?_, ?_⟩
    · intro k
      rw [hconcerns.occupied_eq h.distinct k, hgone.held_eq_zero, Nat.add_zero]
    · rw [← hconcerns.slots_eq, hgone.held_eq_zero, Nat.add_zero]
  ends := fun peer => ⟨gone_close peer n, gone_expire peer n⟩
  others := fun hacts _ hother => (hacts.concerns h.running).find?_eq hother
  serves := by
    intro peer c hfind hlive bytes
    rcases push_of_some hfind bytes with ⟨hanswer, hstate⟩
    rcases feed_of_live hlive bytes n with ⟨hhandled, hdevice, hsent, hgoes⟩
    refine ⟨?_, _, find?_push hanswer, hhandled.listener_eq, hsent, hgoes⟩
    rw [hstate]
    exact hdevice
  replaces := fun _ => ⟨rfl, rfl, rfl, rfl, h.occupied_next, h.max_eq, rfl, rfl⟩
  keeps := fun _ => ⟨rfl, rfl, rfl⟩
  rival := by
    refine ⟨?_, state_rival n⟩
    intro hlistening
    unfold Network.rival
    simp only [answer_bind, answer_get, state_get]
    rw [if_pos hlistening]
    rfl

/-- Whatever has happened to a network that was not stopped, it serves up to its limit. -/
theorem serves_up_to_limit {device : Device} {maxClients : Nat} {reachable : Bool} {n : Network}
    (h : Leads (· ≠ .stop) { device, maxClients, reachable } n) : ServesUpTo maxClients n :=
  ((Accounted.fresh device maxClients reachable).leads h).servesUpTo

/-- A network for one client, whose listener has taken it in. -/
def oneClient : Network :=
  (runSteps [.start (.ok "127.0.0.1"), .connect "a"] { device := fourCellDevice, maxClients := 1 }).state

/-- The second client is refused until the first one has left, or there is a new listener; one that
could not be bound does not help. -/
theorem serves_up_to_limit_oneClient :
    ServesUpTo 1 oneClient ∧ oneClient.occupied 1 = 1 ∧
      (connect "b" oneClient).answer = .ok false ∧
      (connect "b" (close "a" oneClient).state).answer = .ok true ∧
      (connect "b" (start (.error .inUse) oneClient).state).answer = .ok false ∧
      (connect "b" (start (.ok "127.0.0.1") oneClient).state).answer = .ok true := by
  have hbound : Leads (· ≠ .stop) { device := fourCellDevice, maxClients := 1 }
      (Network.step (.start (.ok "127.0.0.1"))
        { device := fourCellDevice, maxClients := 1 }).state :=
    Leads.refl.step fun h => (nomatch h)
  have htaken : Leads (· ≠ .stop) { device := fourCellDevice, maxClients := 1 } oneClient :=
    hbound.step fun h => (nomatch h)
  exact ⟨serves_up_to_limit htaken, rfl, rfl, rfl, rfl, rfl⟩

end Network

end Fieldbus
