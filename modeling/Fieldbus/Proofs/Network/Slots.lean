import Fieldbus.Network.Script
import Fieldbus.Proofs.Journal.Process

/-!
# Slots

A connection that is live holds one slot of the listener that accepted it.  Whatever a client does
concerns its own connection only: the slots that the last listener has left and those that the
client holds of it are together as many as before, and of other listeners the client can only give
slots back.
-/

namespace Fieldbus

/-- The connection holds a slot of the listener `k`. -/
def Connection.Holds (c : Connection) (k : Nat) : Prop :=
  c.live = true ∧ c.listener = k

instance (c : Connection) (k : Nat) : Decidable (c.Holds k) :=
  inferInstanceAs (Decidable (_ ∧ _))

/-- How many slots of the listener `k` the connection holds. -/
def Connection.slots (c : Connection) (k : Nat) : Nat :=
  if c.Holds k then 1 else 0

theorem Connection.slots_of_not_live {c : Connection} (hlive : c.live = false) (k : Nat) :
    c.slots k = 0 := by
  refine if_neg ?_
  rintro ⟨hlive', -⟩
  cases hlive.symm.trans hlive'

theorem Connection.slots_of_ne {c : Connection} {k : Nat} (hk : k ≠ c.listener) :
    c.slots k = 0 := by
  refine if_neg ?_
  rintro ⟨-, hk'⟩
  exact hk hk'.symm

theorem Connection.slots_self {c : Connection} (hlive : c.live = true) : c.slots c.listener = 1 :=
  if_pos ⟨hlive, rfl⟩

/-- What of a network no client can change. -/
structure Standing where
  localAddress : Option String
  maxClients : Nat
  reachable : Bool
  listener : Nat
  listening : Bool
  stopped : Bool

namespace Network

open Process

variable {n n' : Network} {c c' : Connection} {peer : String}

def standing (n : Network) : Standing :=
  { localAddress := n.localAddress
    maxClients := n.maxClients
    reachable := n.reachable
    listener := n.listener
    listening := n.listening
    stopped := n.stopped }

/-! ## Counting slots -/

/-- How many slots of the listener `k` are taken. -/
def occupied (n : Network) (k : Nat) : Nat :=
  n.connections.countP fun c => c.Holds k

/-- The connections of all clients but one. -/
def others (n : Network) (peer : String) : List Connection :=
  n.connections.filter (·.peer ≠ peer)

/-- How many slots of the listener `k` a client holds, which is one or none. -/
def held (n : Network) (peer : String) (k : Nat) : Nat :=
  match n.find? peer with
  | some c => c.slots k
  | none => 0

/-- No client has two connections. -/
def PeersDistinct (n : Network) : Prop :=
  (n.connections.map (·.peer)).Nodup

theorem held_of_some (h : n.find? peer = some c) (k : Nat) : n.held peer k = c.slots k := by
  rw [held, h]

theorem held_of_none (h : n.find? peer = none) (k : Nat) : n.held peer k = 0 := by
  rw [held, h]

theorem peer_of_find? (h : n.find? peer = some c) : c.peer = peer := by
  have hfound := List.find?_some h
  exact of_decide_eq_true hfound

/-- The slots that are taken are those of one client and those of the others. -/
theorem occupied_eq (h : n.PeersDistinct) (peer : String) (k : Nat) :
    n.occupied k = (n.others peer).countP (fun c => c.Holds k) + n.held peer k := by
  unfold occupied others held find?
  unfold PeersDistinct at h
  generalize n.connections = connections at h ⊢
  induction connections with
  | nil => rfl
  | cons c cs ih =>
    rw [List.map_cons, List.nodup_cons] at h
    by_cases hpeer : c.peer = peer
    · -- The client has no other connection behind this one.
      have hothers : (c :: cs).filter (·.peer ≠ peer) = cs := by
        rw [List.filter_cons_of_neg (by simp [hpeer]), List.filter_eq_self]
        intro d hd
        refine decide_eq_true ?_
        intro hsame
        exact h.1 (List.mem_map.mpr ⟨d, hd, hsame.trans hpeer.symm⟩)
      have hfind : (c :: cs).find? (·.peer = peer) = some c :=
        List.find?_cons_of_pos (decide_eq_true hpeer)
      rw [hothers, hfind, List.countP_cons]
      simp only [Connection.slots, decide_eq_true_eq]
    · have hothers : (c :: cs).filter (·.peer ≠ peer) = c :: cs.filter (·.peer ≠ peer) :=
        List.filter_cons_of_pos (decide_eq_true hpeer)
      have hfind : (c :: cs).find? (·.peer = peer) = cs.find? (·.peer = peer) :=
        List.find?_cons_of_neg (by simp [hpeer])
      rw [hothers, hfind, List.countP_cons, List.countP_cons, ih h.2, Nat.add_right_comm]

theorem find?_put_self (n : Network) (c : Connection) : (n.put c).find? c.peer = some c := by
  simp [find?, put]

/-- The connection of a client is among those of all clients but another. -/
theorem find?_others (n : Network) {other : String} (h : other ≠ peer) :
    (n.others peer).find? (·.peer = other) = n.find? other := by
  rw [others, List.find?_filter, find?]
  congr 1
  funext d
  by_cases hd : d.peer = other
  · simp [hd, h]
  · simp [hd]

theorem others_put (n : Network) (c : Connection) : (n.put c).others c.peer = n.others c.peer := by
  simp [others, put]

theorem peersDistinct_put (h : n.PeersDistinct) (c : Connection) : (n.put c).PeersDistinct := by
  have hkept : (n.connections.filter (·.peer ≠ c.peer)).map (·.peer) |>.Nodup :=
    h.sublist (List.filter_sublist.map _)
  refine List.nodup_cons.mpr ⟨?_, hkept⟩
  rintro hmem
  rcases List.mem_map.mp hmem with ⟨d, hd, hsame⟩
  exact of_decide_eq_true (List.mem_filter.mp hd).2 hsame

theorem mem_put {d : Connection} (h : d ∈ (n.put c).connections) : d = c ∨ d ∈ n.connections :=
  (List.mem_cons.mp h).imp_right fun hd => (List.mem_filter.mp hd).1

theorem find?_forget (n : Network) (peer : String) : (n.forget peer).find? peer = none := by
  simp [find?, forget]

theorem others_forget (n : Network) (peer : String) :
    (n.forget peer).others peer = n.others peer := by
  simp [others, forget]

theorem find?_put_of_ne {other : String} (h : other ≠ c.peer) :
    (n.put c).find? other = n.find? other := by
  rw [← (n.put c).find?_others h, others_put, n.find?_others h]

theorem find?_forget_of_ne {other : String} (h : other ≠ peer) :
    (n.forget peer).find? other = n.find? other := by
  rw [← (n.forget peer).find?_others h, others_forget, n.find?_others h]

theorem peersDistinct_forget (h : n.PeersDistinct) (peer : String) :
    (n.forget peer).PeersDistinct :=
  h.sublist (List.filter_sublist.map _)

/-! ## What becomes of one connection -/

/-- A connection has been dealt with, and is `c'` now.  It may have ended; then the slot that it
held is free, if the last listener gave it. -/
structure Handled (c : Connection) (n : Network) (c' : Connection) (n' : Network) : Prop where
  peer_eq : c'.peer = c.peer
  listener_eq : c'.listener = c.listener
  live : c'.live = true → c.live = true
  standing_eq : n'.standing = n.standing
  connections_eq : n'.connections = n.connections
  slots_eq : n'.freeSlots + c'.slots n.listener = n.freeSlots + c.slots n.listener

/-- The network after the slot of a connection has become free. -/
def freed (n : Network) (c : Connection) : Network :=
  if c.listener = n.listener then { n with freeSlots := n.freeSlots + 1 } else n

theorem state_settle (c : Connection) (reason : Option String) (n : Network) :
    (settle c reason n).state = n.freed c := by
  cases reason <;> rfl

theorem answer_settle (c : Connection) (reason : Option String) (n : Network) :
    (settle c reason n).answer = { c with live := false, kept := [] } := by
  cases reason <;> rfl

theorem handled_settle (hlive : c.live = true) (reason : Option String) (n : Network) :
    Handled c n (settle c reason n).answer (settle c reason n).state := by
  rw [answer_settle, state_settle, freed]
  by_cases hlast : c.listener = n.listener
  · rw [if_pos hlast]
    refine ⟨rfl, rfl, fun _ => hlive, rfl, rfl, ?_⟩
    rw [Connection.slots_of_not_live rfl, ← hlast, Connection.slots_self hlive]
  · rw [if_neg hlast]
    refine ⟨rfl, rfl, fun _ => hlive, rfl, rfl, ?_⟩
    rw [Connection.slots_of_not_live rfl, Connection.slots_of_ne (Ne.symm hlast)]

theorem hangUp_of_not_live (hlive : c.live = false) (n : Network) :
    hangUp c n = { answer := c, state := n } := by
  rw [hangUp, if_neg (by simp [hlive])]
  rfl

theorem handled_hangUp (c : Connection) (n : Network) :
    Handled c n (hangUp c n).answer (hangUp c n).state ∧ (hangUp c n).answer.live = false := by
  cases hlive : c.live with
  | true =>
    have hsettle : hangUp c n =
        settle c (if c.kept = [] then none else Breach.cutOff.message?) n := by
      rw [hangUp, if_pos hlive]
    rw [hsettle]
    exact ⟨handled_settle hlive _ n, by rw [answer_settle]⟩
  | false =>
    rw [hangUp_of_not_live hlive]
    exact ⟨⟨rfl, rfl, id, rfl, rfl, rfl⟩, hlive⟩

theorem device_hangUp (c : Connection) (n : Network) : (hangUp c n).state.device = n.device := by
  unfold hangUp
  split
  · rw [state_settle, freed]
    split <;> rfl
  · rfl

/-- Bytes that are served without a breach leave the connection live. -/
theorem feed_of_served (hlive : c.live = true) {bytes : List UInt8}
    (hbreach : (n.device.serveBytes (c.kept ++ bytes)).answer.breach = none) :
    let served := n.device.serveBytes (c.kept ++ bytes)
    (feed bytes c n).answer =
        { c with kept := served.answer.kept, sent := c.sent ++ served.answer.sent } ∧
      (feed bytes c n).state = { n with device := served.state } := by
  unfold feed
  rw [if_pos hlive]
  simp only [answer_bind, state_bind]
  rw [show (serveBytes (c.kept ++ bytes) n).answer.breach = none from hbreach]
  exact ⟨rfl, rfl⟩

/-- The bytes that arrive on a live connection are served by the device, and the answers are sent
back, whichever listener accepted the connection. -/
theorem feed_of_live (hlive : c.live = true) (bytes : List UInt8) (n : Network) :
    let served := (n.device.serveBytes (c.kept ++ bytes)).answer
    Handled c n (feed bytes c n).answer (feed bytes c n).state ∧
      (feed bytes c n).state.device = (n.device.serveBytes (c.kept ++ bytes)).state ∧
      (feed bytes c n).answer.sent = c.sent ++ served.sent ∧
      ((feed bytes c n).answer.live = true ↔ served.breach = none) := by
  intro served
  let later : Network := { n with device := (n.device.serveBytes (c.kept ++ bytes)).state }
  let fed : Connection := { c with kept := served.kept, sent := c.sent ++ served.sent }
  cases hbreach : served.breach with
  | none =>
    rcases feed_of_served hlive hbreach with ⟨hanswer, hstate⟩
    rw [hanswer, hstate]
    exact ⟨⟨rfl, rfl, id, rfl, rfl, rfl⟩, rfl, rfl, fun _ => rfl, fun _ => hlive⟩
  | some breach =>
    have hfeed : (feed bytes c n).answer = (settle fed breach.message? later).answer ∧
        (feed bytes c n).state = (settle fed breach.message? later).state := by
      unfold feed
      rw [if_pos hlive]
      simp only [answer_bind, state_bind]
      rw [show (serveBytes (c.kept ++ bytes) n).answer.breach = some breach from hbreach]
      exact ⟨rfl, rfl⟩
    have hsettle : Handled fed later _ _ := handled_settle (c := fed) hlive breach.message? later
    rw [hfeed.1, hfeed.2]
    refine ⟨⟨hsettle.peer_eq, hsettle.listener_eq, hsettle.live, hsettle.standing_eq,
      hsettle.connections_eq, hsettle.slots_eq⟩, ?_, ?_, ?_⟩
    · rw [state_settle, freed]
      split <;> rfl
    · rw [answer_settle]
    · rw [answer_settle]
      exact ⟨fun h => (nomatch h), fun h => (nomatch h)⟩

theorem feed_of_not_live (hlive : c.live = false) (bytes : List UInt8) (n : Network) :
    feed bytes c n = { answer := c, state := n } := by
  rw [feed, if_neg (by simp [hlive])]
  rfl

theorem handled_feed (c : Connection) (bytes : List UInt8) (n : Network) :
    Handled c n (feed bytes c n).answer (feed bytes c n).state := by
  cases hlive : c.live with
  | true => exact (feed_of_live hlive bytes n).1
  | false =>
    rw [feed_of_not_live hlive]
    exact ⟨rfl, rfl, id, rfl, rfl, rfl⟩

/-! ## What becomes of a network -/

/-- What happened concerns one client: the others keep their connections, the slots that the last
listener has left and those that the client holds of it are together as many as before, and of other
listeners the client holds no more than before. -/
structure Concerns (peer : String) (n n' : Network) : Prop where
  standing_eq : n'.standing = n.standing
  others_eq : n'.others peer = n.others peer
  distinct : n.PeersDistinct → n'.PeersDistinct
  slots_eq : n'.freeSlots + n'.held peer n.listener = n.freeSlots + n.held peer n.listener
  elsewhere : ∀ k ≠ n.listener, n'.held peer k ≤ n.held peer k
  listeners : (∀ c ∈ n.connections, c.listener ≤ n.listener) →
    ∀ c ∈ n'.connections, c.listener ≤ n'.listener

namespace Concerns

theorem listener_eq (h : Concerns peer n n') : n'.listener = n.listener :=
  congrArg Standing.listener h.standing_eq

protected theorem refl (peer : String) (n : Network) : Concerns peer n n :=
  ⟨rfl, rfl, id, rfl, fun _ _ => Nat.le_refl _, id⟩

protected theorem trans {n'' : Network} (h : Concerns peer n n') (h' : Concerns peer n' n'') :
    Concerns peer n n'' := by
  have hlistener := h.listener_eq
  refine ⟨h'.standing_eq.trans h.standing_eq, h'.others_eq.trans h.others_eq,
    h'.distinct ∘ h.distinct, ?_, ?_, h'.listeners ∘ h.listeners⟩
  · have hslots := h'.slots_eq
    rw [hlistener] at hslots
    exact hslots.trans h.slots_eq
  · intro k hk
    exact Nat.le_trans (h'.elsewhere k (hlistener ▸ hk)) (h.elsewhere k hk)

/-- Another client keeps its connection. -/
theorem find?_eq (h : Concerns peer n n') {other : String} (hother : other ≠ peer) :
    n'.find? other = n.find? other := by
  rw [← n'.find?_others hother, h.others_eq, n.find?_others hother]

/-- The slots that are taken are as many more or less as those that the client holds. -/
theorem occupied_eq (h : Concerns peer n n') (hdistinct : n.PeersDistinct) (k : Nat) :
    n'.occupied k + n.held peer k = n.occupied k + n'.held peer k := by
  rw [Network.occupied_eq (h.distinct hdistinct) peer, Network.occupied_eq hdistinct peer,
    h.others_eq, Nat.add_right_comm]

end Concerns

theorem Handled.others_eq (h : Handled c n c' n') (peer : String) :
    n'.others peer = n.others peer := by
  rw [others, others, h.connections_eq]

theorem Handled.distinct (h : Handled c n c' n') : n.PeersDistinct → n'.PeersDistinct := by
  rw [PeersDistinct, PeersDistinct, h.connections_eq]
  exact id

theorem Handled.slots_le (h : Handled c n c' n') (k : Nat) : c'.slots k ≤ c.slots k := by
  unfold Connection.slots
  split
  · rename_i hholds
    have hwas : c.Holds k := ⟨h.live hholds.1, h.listener_eq ▸ hholds.2⟩
    exact Nat.le_of_eq (if_pos hwas).symm
  · exact Nat.zero_le _

/-- A client whose connection was dealt with and put back. -/
theorem Handled.concerns_put (h : Handled c n c' n') (hfind : n.find? peer = some c) :
    Concerns peer n (n'.put c') := by
  have hpeer : c'.peer = peer := h.peer_eq.trans (peer_of_find? hfind)
  have hfound : (n'.put c').find? peer = some c' := by
    rw [← hpeer]
    exact find?_put_self n' c'
  refine ⟨h.standing_eq, ?_, fun hdistinct => peersDistinct_put (h.distinct hdistinct) c', ?_, ?_, ?_⟩
  · rw [← hpeer, others_put, h.others_eq]
  · rw [held_of_some hfound, held_of_some hfind]
    exact h.slots_eq
  · intro k _
    rw [held_of_some hfound, held_of_some hfind]
    exact h.slots_le k
  · intro hbefore d hd
    have hlistener : n'.listener = n.listener := congrArg Standing.listener h.standing_eq
    refine Nat.le_trans ?_ (Nat.le_of_eq hlistener.symm)
    rcases mem_put hd with rfl | hd
    · rw [h.listener_eq]
      exact hbefore c (List.mem_of_find?_eq_some hfind)
    · exact hbefore d (h.connections_eq ▸ hd)

/-- A client whose connection was brought to its end and forgotten. -/
theorem Handled.concerns_forget (h : Handled c n c' n') (hended : c'.live = false)
    (hfind : n.find? peer = some c) : Concerns peer n (n'.forget peer) := by
  have hfound := find?_forget n' peer
  refine ⟨h.standing_eq, ?_, fun hdistinct => peersDistinct_forget (h.distinct hdistinct) peer,
    ?_, ?_, ?_⟩
  · rw [others_forget, h.others_eq]
  · rw [held_of_none hfound, held_of_some hfind, ← h.slots_eq, Connection.slots_of_not_live hended]
    rfl
  · intro k _
    rw [held_of_none hfound]
    exact Nat.zero_le _
  · intro hbefore d hd
    have hlistener : n'.listener = n.listener := congrArg Standing.listener h.standing_eq
    refine Nat.le_trans ?_ (Nat.le_of_eq hlistener.symm)
    exact hbefore d (h.connections_eq ▸ (List.mem_filter.mp hd).1)

/-! ## What a client does -/

theorem push_of_none (hfind : n.find? peer = none) (bytes : List UInt8) :
    (push peer bytes n).answer = none ∧ (push peer bytes n).state = n := by
  unfold push
  simp only [answer_bind, state_bind, answer_get, state_get, hfind]
  exact ⟨rfl, rfl⟩

theorem push_of_some (hfind : n.find? peer = some c) (bytes : List UInt8) :
    (push peer bytes n).answer = some (feed bytes c n).answer ∧
      (push peer bytes n).state = (feed bytes c n).state.put (feed bytes c n).answer := by
  unfold push
  simp only [answer_bind, state_bind, answer_get, state_get, hfind]
  exact ⟨rfl, rfl⟩

theorem concerns_push (peer : String) (bytes : List UInt8) (n : Network) :
    Concerns peer n (push peer bytes n).state := by
  cases hfind : n.find? peer with
  | none =>
    rw [(push_of_none hfind bytes).2]
    exact .refl peer n
  | some c =>
    rw [(push_of_some hfind bytes).2]
    exact (handled_feed c bytes n).concerns_put hfind

/-- After a push the client has the connection that the push answered. -/
theorem find?_push {c' : Connection} (hanswer : (push peer bytes n).answer = some c') :
    (push peer bytes n).state.find? peer = some c' := by
  cases hfind : n.find? peer with
  | none => cases (push_of_none hfind bytes).1.symm.trans hanswer
  | some c =>
    rcases push_of_some hfind bytes with ⟨hanswer', hstate⟩
    cases hanswer'.symm.trans hanswer
    have hpeer := (handled_feed c bytes n).peer_eq.trans (peer_of_find? hfind)
    rw [hstate, ← hpeer]
    exact find?_put_self _ _

/-- What the client has not read yet makes no difference to slots. -/
theorem concerns_read (hfind : n.find? peer = some c) (rest : List UInt8) :
    Concerns peer n (n.put { c with sent := rest }) := by
  have hhandled : Handled c n { c with sent := rest } n := ⟨rfl, rfl, id, rfl, rfl, rfl⟩
  exact hhandled.concerns_put hfind

theorem concerns_exchange (peer : String) (bytes : List UInt8) (n : Network) :
    Concerns peer n (exchange peer bytes n).state := by
  have hpush := concerns_push peer bytes n
  unfold exchange
  simp only [state_bind]
  cases hanswer : (push peer bytes n).answer with
  | none => exact hpush
  | some c =>
    have hfind := find?_push hanswer
    cases hscan : Frame.scan c.sent with
    | frame f rest =>
      simp only [hscan]
      exact hpush.trans (concerns_read hfind rest)
    | waiting =>
      simp only [hscan]
      exact hpush
    | breach reason =>
      simp only [hscan]
      exact hpush

theorem concerns_receive (peer : String) (bytes : List UInt8) (n : Network) :
    Concerns peer n (receive peer bytes n).state := by
  have hpush := concerns_push peer bytes n
  unfold receive
  simp only [state_bind]
  cases hanswer : (push peer bytes n).answer with
  | none => exact hpush
  | some c => exact hpush.trans (concerns_read (find?_push hanswer) [])

theorem concerns_close (peer : String) (n : Network) : Concerns peer n (close peer n).state := by
  unfold close
  simp only [state_bind, answer_get, state_get]
  cases hfind : n.find? peer with
  | none => exact .refl peer n
  | some c =>
    rcases handled_hangUp c n with ⟨hhandled, hended⟩
    exact hhandled.concerns_forget hended hfind

theorem concerns_expire (peer : String) (n : Network) : Concerns peer n (expire peer n).state := by
  unfold expire
  simp only [state_bind, answer_get, state_get]
  cases hfind : n.find? peer with
  | none => exact .refl peer n
  | some c =>
    dsimp only
    split
    · rename_i hlive
      exact (handled_settle hlive _ n).concerns_put hfind
    · exact .refl peer n

/-! ## Attempts to connect -/

/-- A client that is taken in, or refused, has a connection from then on. -/
def attempt (n : Network) (peer : String) : Connection :=
  { peer, listener := n.listener, live := decide (0 < n.freeSlots) }

theorem takeIn_of_not_stopped (hstopped : n.stopped = false) (peer : String) :
    (takeIn peer n).answer = n.attempt peer ∧
      (takeIn peer n).state = { n with freeSlots := n.freeSlots - 1 } := by
  unfold takeIn
  simp only [answer_bind, state_bind, answer_get, state_get]
  cases hslots : n.freeSlots with
  | zero =>
    have hsame : n = { n with freeSlots := 0 } := by rw [← hslots]
    refine ⟨?_, ?_⟩
    · rw [attempt, hslots]
      rfl
    · exact hsame
  | succ slots =>
    simp only [hstopped, Bool.false_eq_true, if_false]
    refine ⟨?_, ?_⟩
    · rw [attempt, hslots]
      rfl
    · rw [Nat.add_sub_cancel]
      rfl

/-- A slot that is left goes to the client. -/
theorem slots_attempt (n : Network) (peer : String) :
    n.freeSlots - 1 + (n.attempt peer).slots n.listener = n.freeSlots := by
  by_cases hroom : 0 < n.freeSlots
  · have hlive : (n.attempt peer).live = true := decide_eq_true hroom
    have hslots : (n.attempt peer).slots n.listener = 1 := Connection.slots_self hlive
    rw [hslots]
    exact Nat.sub_add_cancel hroom
  · have hlive : (n.attempt peer).live = false := decide_eq_false hroom
    rw [Connection.slots_of_not_live hlive, Nat.eq_zero_of_not_pos hroom]

/-- An attempt to connect that finds a listener: the client lets go of the connection that it had,
and gets one that is live if a slot was left before. -/
theorem connect_of_listening (hreachable : n.reachable = true) (hlistening : n.listening = true)
    (hstopped : n.stopped = false) (peer : String) :
    (connect peer n).answer = .ok (decide (0 < n.freeSlots)) ∧
      ∃ n' : Network, (connect peer n).state = n'.put (n.attempt peer) ∧
        n'.standing = n.standing ∧ n'.connections = n.connections ∧ n'.device = n.device ∧
        n'.freeSlots + (n.attempt peer).slots n.listener =
          n.freeSlots + n.held peer n.listener := by
  rcases takeIn_of_not_stopped hstopped peer with ⟨hanswer, hstate⟩
  let taken : Network := { n with freeSlots := n.freeSlots - 1 }
  have hslots := n.slots_attempt peer
  unfold connect
  simp only [answer_bind, state_bind, answer_get, state_get]
  rw [if_neg (not_not_intro hreachable), if_neg (not_not_intro hlistening)]
  simp only [answer_bind, state_bind, hanswer, hstate]
  cases hfind : n.find? peer with
  | none =>
    refine ⟨rfl, taken, rfl, rfl, rfl, rfl, ?_⟩
    rw [held_of_none hfind]
    exact hslots
  | some earlier =>
    rcases handled_hangUp earlier taken with ⟨hhandled, hended⟩
    refine ⟨rfl, (hangUp earlier taken).state, rfl, hhandled.standing_eq, hhandled.connections_eq,
      device_hangUp earlier taken, ?_⟩
    have hfreed : (hangUp earlier taken).state.freeSlots =
        n.freeSlots - 1 + earlier.slots n.listener := by
      have := hhandled.slots_eq
      rwa [Connection.slots_of_not_live hended, Nat.add_zero] at this
    rw [held_of_some hfind, hfreed, Nat.add_right_comm, hslots]

theorem connect_of_not_listening (h : n.reachable = false ∨ n.listening = false) (peer : String) :
    (connect peer n).state = n ∧ (connect peer n).events = [] ∧
      ∃ e, (connect peer n).answer = .error e := by
  unfold connect
  simp only [answer_bind, state_bind, events_bind, answer_get, state_get, events_get]
  cases hreachable : n.reachable with
  | false => exact ⟨rfl, rfl, _, rfl⟩
  | true =>
    have hlistening : n.listening = false :=
      h.resolve_left fun hreachable' => nomatch hreachable.symm.trans hreachable'
    rw [hlistening]
    exact ⟨rfl, rfl, _, rfl⟩

theorem concerns_connect (hstopped : n.stopped = false) (peer : String) :
    Concerns peer n (connect peer n).state := by
  by_cases hready : n.reachable = true ∧ n.listening = true
  · rcases connect_of_listening hready.1 hready.2 hstopped peer
      with ⟨-, n', hstate, hstanding, hconnections, -, hslots⟩
    have hfound : (n'.put (n.attempt peer)).find? peer = some (n.attempt peer) :=
      find?_put_self n' (n.attempt peer)
    rw [hstate]
    refine ⟨hstanding, ?_, ?_, ?_, ?_, ?_⟩
    · have hothers := others_put n' (n.attempt peer)
      rw [others, others, hconnections] at hothers
      exact hothers
    · intro hdistinct
      refine peersDistinct_put ?_ _
      rwa [PeersDistinct, hconnections]
    · rw [held_of_some hfound]
      exact hslots
    · intro k hk
      rw [held_of_some hfound, Connection.slots_of_ne hk]
      exact Nat.zero_le _
    · intro hbefore c hc
      have hlistener : n'.listener = n.listener := congrArg Standing.listener hstanding
      refine Nat.le_trans ?_ (Nat.le_of_eq hlistener.symm)
      rcases mem_put hc with rfl | hc
      · exact Nat.le_refl _
      · exact hbefore c (hconnections ▸ hc)
  · have hnot : n.reachable = false ∨ n.listening = false := by
      cases hreachable : n.reachable with
      | false => exact Or.inl rfl
      | true => exact Or.inr (by simpa [hreachable] using hready)
    rw [(connect_of_not_listening hnot peer).1]
    exact .refl peer n

theorem concerns_session (hstopped : n.stopped = false) (peer : String) (bytes : List UInt8) :
    Concerns peer n (session peer bytes n).state := by
  have hconnect := concerns_connect hstopped peer
  unfold session
  simp only [state_bind]
  cases hanswer : (connect peer n).answer with
  | error e => exact hconnect
  | ok accepted => exact hconnect.trans ((concerns_push peer bytes _).trans (concerns_close peer _))

end Network

end Fieldbus
