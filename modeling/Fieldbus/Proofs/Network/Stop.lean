import Fieldbus.Proofs.Device.Updates
import Fieldbus.Proofs.Network.Deliveries

/-!
# A stop is final

A stop ends all connections, and those that are accepted after it end at once.  So nothing that a
client sends after a stop reaches the device, on whatever connection and however often listeners are
started again.  `Silent` says it of a network; every step keeps it (`hush_step`), and leaves the
device to the operations of its owner.
-/

namespace Fieldbus

/-- The operations that a step carries out on the device itself, not on behalf of a client. -/
def NetworkStep.ownOperations : NetworkStep → List Operation
  | .device operations => operations
  | _ => []

/-- The bytes that a client reads when a step is taken. -/
def NetworkStep.reads (s : NetworkStep) (answer : NetworkAnswer) (peer : String) : List UInt8 :=
  (NetworkStep.brings peer (s, answer)).flatten

theorem NetworkStep.reads_of_brings {s : NetworkStep} {answer : NetworkAnswer} (peer : String)
    (bytes : List UInt8)
    (h : ∀ other, NetworkStep.brings other (s, answer) = if peer = other then [bytes] else []) :
    s.reads answer = fun other => if peer = other then bytes else [] := by
  funext other
  rw [reads, h other]
  split
  · exact List.flatten_singleton
  · rfl

namespace Network

open Process

variable {n n' n'' : Network} {c : Connection} {peer : String}

/-- The answers that wait for a client to read them. -/
def unread (n : Network) (peer : String) : List UInt8 :=
  ((n.find? peer).map (·.sent)).getD []

theorem unread_of_some (h : n.find? peer = some c) : n.unread peer = c.sent := by
  rw [unread, h]
  rfl

theorem unread_of_none (h : n.find? peer = none) : n.unread peer = [] := by
  rw [unread, h]
  rfl

/-- A network that was stopped, and on which no connection is live. -/
structure Silent (n : Network) : Prop where
  stopped : n.stopped = true
  dead : ∀ c ∈ n.connections, c.live = false

namespace Silent

theorem find? (h : n.Silent) (hfind : n.find? peer = some c) : c.live = false :=
  h.dead c (List.mem_of_find?_eq_some hfind)

theorem put (h : n.Silent) (hdead : c.live = false) : (n.put c).Silent := by
  refine ⟨h.stopped, fun d hd => ?_⟩
  rcases mem_put hd with rfl | hd
  · exact hdead
  · exact h.dead d hd

theorem forget (h : n.Silent) (peer : String) : (n.forget peer).Silent :=
  ⟨h.stopped, fun c hc => h.dead c (List.mem_filter.mp hc).1⟩

end Silent

/-! ## What happens after a stop -/

/-- What happens on a silent network: the device carries out `ops` and reports nothing else, and
what clients read has waited for them. -/
structure Hush (n : Network) (ops : List Operation) (reads : String → List UInt8) (n' : Network)
    (events : List Event) : Prop where
  silent : n'.Silent
  device_eq : n'.device = (n.device.run ops).state
  events_eq : events.filter (·.isDevice) = (n.device.run ops).events
  unread : ∀ peer, reads peer ++ n'.unread peer <+: n.unread peer

namespace Hush

variable {ops ops' : List Operation} {reads reads' : String → List UInt8}
  {events events' : List Event}

theorem trans (h : Hush n ops reads n' events) (h' : Hush n' ops' reads' n'' events') :
    Hush n (ops ++ ops') (fun peer => reads peer ++ reads' peer) n'' (events ++ events') := by
  refine ⟨h'.silent, ?_, ?_, fun peer => ?_⟩
  · rw [Device.run_append, ← h.device_eq]
    exact h'.device_eq
  · rw [List.filter_append, h.events_eq, h'.events_eq, h.device_eq]
    exact (Device.events_run_append ..).symm
  · have hboth : reads peer ++ (reads' peer ++ n''.unread peer) <+: reads peer ++ n'.unread peer :=
      (List.prefix_append_right_inj _).mpr (h'.unread peer)
    rw [List.append_assoc]
    exact hboth.trans (h.unread peer)

theorem append_nil (h : Hush n ops reads n' events) : Hush n ops reads n' (events ++ []) :=
  (List.append_nil events).symm ▸ h

/-- Nothing has happened to the device, and clients have read what waited for them. -/
theorem of_device_eq (h : n'.Silent) (hdevice : n'.device = n.device)
    (hevents : ∀ e ∈ events, e.isDevice = false)
    (hunread : ∀ peer, reads peer ++ n'.unread peer <+: n.unread peer) :
    Hush n [] reads n' events := by
  refine ⟨h, hdevice, List.filter_eq_nil_iff.mpr fun e he => ?_, hunread⟩
  rw [hevents e he]
  exact Bool.false_ne_true

end Hush

/-! ## What waits to be read -/

theorem unread_of_find?_eq (h : n'.find? peer = n.find? peer) : n'.unread peer = n.unread peer := by
  rw [unread, unread, h]

/-- A client has read a part of what waited, and the rest waits. -/
theorem unread_put (bytes : List UInt8) (h : bytes ++ c.sent <+: n.unread c.peer) (peer : String) :
    (if c.peer = peer then bytes else []) ++ (n.put c).unread peer <+: n.unread peer := by
  by_cases hpeer : c.peer = peer
  · subst hpeer
    rw [if_pos rfl, unread_of_some (find?_put_self n c)]
    exact h
  · rw [if_neg hpeer, unread_of_find?_eq (find?_put_of_ne (Ne.symm hpeer))]
    exact List.prefix_refl _

/-- A client whose connection is forgotten has read all that waited, or a part of it. -/
theorem unread_forget {bytes : List UInt8} {other : String} (h : bytes <+: n.unread other)
    (peer : String) :
    (if other = peer then bytes else []) ++ (n.forget other).unread peer <+: n.unread peer := by
  by_cases hpeer : other = peer
  · subst hpeer
    rw [if_pos rfl, unread_of_none (find?_forget n other), List.append_nil]
    exact h
  · rw [if_neg hpeer, unread_of_find?_eq (find?_forget_of_ne (Ne.symm hpeer))]
    exact List.prefix_refl _

/-! ## The stop -/

theorem events_settle (c : Connection) (reason : Option String) (n : Network) :
    (settle c reason n).events =
      .clientDisconnected c.peer :: reason.toList.map .connectionFailed := by
  cases reason <;> rfl

theorem isDevice_hangUp (c : Connection) (n : Network) :
    ∀ e ∈ (hangUp c n).events, e.isDevice = false := by
  intro e he
  unfold hangUp at he
  split at he
  · rw [events_settle] at he
    rcases List.mem_cons.mp he with rfl | he
    · rfl
    · rcases List.mem_map.mp he with ⟨reason, -, rfl⟩
      rfl
  · cases he

theorem sent_hangUp (c : Connection) (n : Network) : (hangUp c n).answer.sent = c.sent := by
  unfold hangUp
  split
  · rw [answer_settle]
  · rfl

/-- All connections of a list have ended, and nothing that waits to be read is lost. -/
theorem hangUpAll_spec (cs : List Connection) (n : Network) :
    let done := hangUpAll cs n
    (∀ c ∈ done.answer, c.live = false) ∧ done.state.standing = n.standing ∧
      done.state.device = n.device ∧ (∀ e ∈ done.events, e.isDevice = false) ∧
      ∀ peer, (done.answer.find? (·.peer = peer)).map (·.sent) =
        (cs.find? (·.peer = peer)).map (·.sent) := by
  induction cs generalizing n with
  | nil => exact ⟨fun c hc => (nomatch hc), rfl, rfl, fun e he => (nomatch he), fun peer => rfl⟩
  | cons c cs ih =>
    rcases handled_hangUp c n with ⟨hhandled, hended⟩
    rcases ih (hangUp c n).state with ⟨hdead, hstanding, hdevice, hevents, hsent⟩
    refine ⟨?_, hstanding.trans hhandled.standing_eq, hdevice.trans (device_hangUp c n), ?_, ?_⟩
    · intro d hd
      rcases List.mem_cons.mp hd with rfl | hd
      · exact hended
      · exact hdead d hd
    · intro e he
      rcases List.mem_append.mp he with he | he
      · exact isDevice_hangUp c n e he
      · rcases List.mem_append.mp he with he | he
        · exact hevents e he
        · cases he
    · intro peer
      have hanswer : (hangUpAll (c :: cs) n).answer =
          (hangUp c n).answer :: (hangUpAll cs (hangUp c n).state).answer := rfl
      rw [hanswer, List.find?_cons, List.find?_cons, hhandled.peer_eq]
      split
      · exact congrArg some (sent_hangUp c n)
      · exact hsent peer

theorem hangUpAll_of_dead {cs : List Connection} (h : ∀ c ∈ cs, c.live = false) (n : Network) :
    hangUpAll cs n = { answer := cs, state := n } := by
  induction cs with
  | nil => rfl
  | cons c cs ih =>
    have hfirst := hangUp_of_not_live (h c List.mem_cons_self) n
    have hrest := ih fun d hd => h d (List.mem_cons_of_mem c hd)
    simp only [hangUpAll, Bind.bind, Outcome.andThen, hfirst, hrest]
    rfl

theorem stop_eq (n : Network) :
    let done := hangUpAll n.connections { n with stopped := true, listening := false }
    (stop n).state = { done.state with connections := done.answer } ∧
      (stop n).events = done.events ++ if n.listening then [.listenerStopped] else [] := by
  unfold stop
  simp only [state_bind, events_bind, answer_get, state_get]
  cases n.listening <;> exact ⟨rfl, rfl⟩

theorem isDevice_stopped (listening : Bool) :
    ∀ e ∈ (if listening then [Event.listenerStopped] else []), e.isDevice = false := by
  cases listening <;> decide

/-- Whatever has happened before, a stop ends what clients can ask of the device. -/
theorem hush_stop (n : Network) : Hush n [] (fun _ => []) (stop n).state (stop n).events := by
  rcases hangUpAll_spec n.connections { n with stopped := true, listening := false }
    with ⟨hdead, hstanding, hdevice, hevents, hsent⟩
  rw [(stop_eq n).1, (stop_eq n).2]
  refine .of_device_eq ⟨congrArg Standing.stopped hstanding, hdead⟩ hdevice ?_ fun peer => ?_
  · intro e he
    exact (List.mem_append.mp he).elim (hevents e) (isDevice_stopped n.listening e)
  · have hsame : (stop n).state.unread peer = n.unread peer := by
      rw [(stop_eq n).1]
      exact congrArg (Option.getD · []) (hsent peer)
    rw [(stop_eq n).1] at hsame
    exact ⟨[], (List.append_nil _).trans hsame⟩

/-- A further stop ends a listener that has been started since, and nothing else. -/
theorem Silent.stop_eq (h : n.Silent) :
    (stop n).state = { n with listening := false } ∧
      (stop n).events = if n.listening then [.listenerStopped] else [] := by
  rw [(Network.stop_eq n).1, (Network.stop_eq n).2, hangUpAll_of_dead h.dead]
  refine ⟨?_, rfl⟩
  exact congrArg (fun stopped => { n with stopped, listening := false }) h.stopped.symm

/-! ## Steps after a stop -/

theorem takeIn_of_stopped (hstopped : n.stopped = true) (peer : String) :
    (∀ e ∈ (takeIn peer n).events, e.isDevice = false) ∧
      (∃ slots, (takeIn peer n).state = { n with freeSlots := slots }) ∧
      (takeIn peer n).answer.peer = peer ∧ (takeIn peer n).answer.live = false ∧
      (takeIn peer n).answer.sent = [] := by
  unfold takeIn
  simp only [answer_bind, state_bind, events_bind, answer_get, state_get, events_get]
  cases n.freeSlots with
  | zero =>
    refine ⟨?_, ⟨n.freeSlots, rfl⟩, rfl, rfl, rfl⟩
    intro e he
    cases List.mem_singleton.mp he
    rfl
  | succ slots =>
    simp only [hstopped, if_true]
    let c : Connection := { peer, listener := n.listener, live := true }
    have hstate : (hangUp c { n with stopped := true, freeSlots := slots }).state =
        { n with stopped := true, freeSlots := slots + 1 } := by
      rw [hangUp, if_pos rfl, state_settle, freed, if_pos rfl]
    refine ⟨?_, ⟨slots + 1, hstate⟩, rfl, rfl, rfl⟩
    intro e he
    rcases List.mem_cons.mp he with rfl | he
    · rfl
    · exact isDevice_hangUp c _ e he

/-- A client that connects is taken in, or is not, and has a connection that has ended. -/
theorem Silent.connect (h : n.Silent) (peer : String) :
    (∀ e ∈ (connect peer n).events, e.isDevice = false) ∧
      ((connect peer n).state = n ∧ (∃ e, (connect peer n).answer = .error e) ∨
        ∃ slots accepted c, c.peer = peer ∧ c.live = false ∧ c.sent = [] ∧
          (connect peer n).state = ({ n with freeSlots := slots } : Network).put c ∧
          (connect peer n).answer = .ok accepted) := by
  rcases takeIn_of_stopped h.stopped peer with ⟨hevents, ⟨slots, hstate⟩, hpeer, hdead, hsent⟩
  by_cases hready : n.reachable = true ∧ n.listening = true
  · have hunreachable : ¬ ¬ n.reachable = true := not_not_intro hready.1
    have hdeaf : ¬ ¬ n.listening = true := not_not_intro hready.2
    unfold Network.connect
    simp only [answer_bind, state_bind, events_bind, answer_get, state_get, events_get,
      if_neg hunreachable, if_neg hdeaf]
    -- The connection that the client had has ended already, so that letting go of it does nothing.
    have hlet : ∀ earlier, n.find? peer = some earlier → ∀ n' : Network,
        (discard (hangUp earlier) : Process Network Unit) n' = { answer := (), state := n' } := by
      intro earlier hfind n'
      have hdiscard : (discard (hangUp earlier) : Process Network Unit) n' =
          (hangUp earlier n').andThen fun _ n' => { answer := (), state := n' } := rfl
      rw [hdiscard, hangUp_of_not_live (h.find? hfind)]
      rfl
    refine ⟨?_, Or.inr ⟨slots, decide (0 < n.freeSlots), (takeIn peer n).answer, hpeer, hdead,
      hsent, ?_, ?_⟩⟩
    · intro e he
      rw [List.nil_append] at he
      rcases List.mem_append.mp he with he | he
      · exact hevents e he
      · cases hfind : n.find? peer with
        | none =>
          rw [hfind] at he
          cases he
        | some earlier =>
          simp only [hfind, events_bind, hlet earlier hfind] at he
          cases he
    · rw [← hstate]
      cases hfind : n.find? peer with
      | none => rfl
      | some earlier =>
        simp only [state_bind, hlet earlier hfind]
        rfl
    · cases hfind : n.find? peer <;> rfl
  · have hnot : n.reachable = false ∨ n.listening = false := by
      cases hreachable : n.reachable with
      | false => exact Or.inl rfl
      | true => exact Or.inr (by simpa [hreachable] using hready)
    rcases connect_of_not_listening hnot peer with ⟨hsame, hnothing, herror⟩
    rw [hnothing]
    exact ⟨fun e he => (nomatch he), Or.inl ⟨hsame, herror⟩⟩

theorem hush_connect (h : n.Silent) (peer : String) :
    Hush n [] (fun _ => []) (connect peer n).state (connect peer n).events := by
  rcases h.connect peer
    with ⟨hevents, ⟨hsame, -⟩ | ⟨slots, accepted, c, hpeer, hdead, hsent, hstate, -⟩⟩
  · rw [hsame]
    exact .of_device_eq h rfl hevents fun peer => List.prefix_refl _
  · rw [hstate]
    have hsilent : ({ n with freeSlots := slots } : Network).Silent := ⟨h.stopped, h.dead⟩
    refine .of_device_eq (hsilent.put hdead) rfl hevents fun other => ?_
    have hnothing := unread_put (n := { n with freeSlots := slots }) (c := c) []
      (hsent.symm ▸ List.nil_prefix) other
    rwa [ite_self] at hnothing

theorem events_push (peer : String) (bytes : List UInt8) (n : Network) :
    (push peer bytes n).events =
      match n.find? peer with
      | none => []
      | some c => (feed bytes c n).events := by
  unfold push
  simp only [events_bind, answer_get, state_get, events_get]
  cases n.find? peer with
  | none => rfl
  | some c => exact List.append_nil _

/-- Bytes that arrive from a client are not looked at. -/
theorem Silent.push (h : n.Silent) (peer : String) (bytes : List UInt8) :
    (push peer bytes n).answer = n.find? peer ∧ (push peer bytes n).events = [] ∧
      Hush n [] (fun _ => []) (push peer bytes n).state (push peer bytes n).events := by
  rw [events_push]
  cases hfind : n.find? peer with
  | none =>
    rcases push_of_none hfind bytes with ⟨hanswer, hstate⟩
    rw [hanswer, hstate]
    exact ⟨rfl, rfl, .of_device_eq h rfl (fun e he => nomatch he) fun peer => List.prefix_refl _⟩
  | some c =>
    rcases push_of_some hfind bytes with ⟨hanswer, hstate⟩
    have hdead := h.find? hfind
    have hwaits : n.unread c.peer = c.sent := by
      rw [peer_of_find? hfind]
      exact unread_of_some hfind
    rw [hanswer, hstate]
    simp only [feed_of_not_live hdead]
    have hkept (other : String) : (n.put c).unread other <+: n.unread other := by
      have hnothing := unread_put (n := n) (c := c) [] (hwaits ▸ List.prefix_refl _) other
      rwa [ite_self] at hnothing
    exact ⟨trivial, trivial, .of_device_eq (h.put hdead) rfl (fun e he => nomatch he) hkept⟩

/-- An exchange brings a client what has waited. -/
theorem hush_exchange (h : n.Silent) (peer : String) (bytes : List UInt8) :
    Hush n [] (NetworkStep.reads (.exchange peer bytes) (exchange peer bytes n).answer)
      (exchange peer bytes n).state (exchange peer bytes n).events := by
  rcases h.push peer bytes with ⟨hanswer, hevents, hpush⟩
  unfold exchange
  simp only [answer_bind, state_bind, events_bind, hanswer]
  cases hfind : n.find? peer with
  | none =>
    -- A client without a connection is not listened to.
    rw [hevents] at hpush ⊢
    exact hpush
  | some c =>
    have hdead := h.find? hfind
    have hfound := find?_push (hanswer.trans hfind)
    cases peer_of_find? hfind
    cases hscan : Frame.scan c.sent with
    | frame f rest =>
      simp only [hscan]
      rw [NetworkStep.reads_of_brings c.peer f.toBytes fun other => rfl]
      have hall : (push c.peer bytes n).state.unread c.peer = f.toBytes ++ rest :=
        (unread_of_some hfound).trans (Frame.toBytes_append_of_scan hscan).symm
      have hread : f.toBytes ++ rest <+: (push c.peer bytes n).state.unread c.peer :=
        hall ▸ List.prefix_refl _
      have htaken : Hush (push c.peer bytes n).state []
          (fun other => if c.peer = other then f.toBytes else [])
          ((push c.peer bytes n).state.put { c with sent := rest }) [] :=
        .of_device_eq (hpush.silent.put hdead) rfl (fun e he => nomatch he)
          (unread_put (c := { c with sent := rest }) _ hread)
      exact hpush.trans htaken
    | waiting =>
      simp only [hscan, hdead]
      rw [hevents] at hpush ⊢
      exact hpush
    | breach reason =>
      simp only [hscan, hdead]
      rw [hevents] at hpush ⊢
      exact hpush

theorem hush_close (h : n.Silent) (peer : String) :
    Hush n [] (fun other => if peer = other then (close peer n).answer.getD [] else [])
      (close peer n).state (close peer n).events := by
  unfold close
  simp only [answer_bind, state_bind, events_bind, answer_get, state_get, events_get,
    List.nil_append]
  cases hfind : n.find? peer with
  | none =>
    refine .of_device_eq h rfl (fun e he => nomatch he) fun other => ?_
    rw [answer_pure, Option.getD_none, ite_self]
    exact List.prefix_refl _
  | some c =>
    simp only [answer_bind, state_bind, events_bind, hangUp_of_not_live (h.find? hfind)]
    refine .of_device_eq (h.forget peer) rfl (fun e he => nomatch he) fun other => ?_
    exact unread_forget (unread_of_some hfind ▸ List.prefix_refl _) other

/-- A client that connects, sends and closes reads nothing that it has caused. -/
theorem hush_session (h : n.Silent) (peer : String) (bytes : List UInt8) :
    Hush n [] (NetworkStep.reads (.session peer bytes) (.session (session peer bytes n).answer))
      (session peer bytes n).state (session peer bytes n).events := by
  have hconnect := hush_connect h peer
  unfold session
  simp only [answer_bind, state_bind, events_bind]
  cases hanswer : (connect peer n).answer with
  | error e => exact hconnect.append_nil
  | ok accepted =>
    -- The client is taken in, but its connection ends before it sends anything.
    have hpush := (hconnect.silent.push peer bytes).2.2
    have hclose := hush_close hpush.silent peer
    rw [NetworkStep.reads_of_brings peer _ fun other => rfl]
    exact hconnect.trans (hpush.append_nil.trans hclose.append_nil)

theorem isDevice_listen (bound : Except BindError String) (n : Network) :
    ∀ e ∈ (listen bound n).events, e.isDevice = false := by
  intro e he
  cases bound with
  | error reason => cases he
  | ok address =>
    rcases List.mem_cons.mp he with rfl | he
    · rfl
    · cases he

theorem isDevice_rival (n : Network) : ∀ e ∈ (rival n).events, e.isDevice = false := by
  intro e he
  unfold rival at he
  simp only [events_bind, answer_get, state_get, events_get, List.nil_append] at he
  rcases List.mem_append.mp he with he | he
  · exact isDevice_listen _ _ e he
  · cases he

/-- What a step does on a silent network. -/
theorem hush_step (h : n.Silent) (s : NetworkStep) :
    Hush n s.ownOperations (s.reads (Network.step s n).answer) (Network.step s n).state
      (Network.step s n).events := by
  cases s with
  | start bound =>
    have hevents := isDevice_listen bound n
    cases bound with
    | error e => exact .of_device_eq h rfl hevents fun peer => List.prefix_refl _
    | ok address =>
      exact .of_device_eq ⟨h.stopped, h.dead⟩ rfl hevents fun peer => List.prefix_refl _
  | stop => exact (hush_stop n).append_nil
  | rival => exact .of_device_eq h rfl (isDevice_rival n) fun peer => List.prefix_refl _
  | connect peer => exact (hush_connect h peer).append_nil
  | push peer bytes =>
    have hpush := (h.push peer bytes).2.2
    simp only [Network.step, state_bind, events_bind, answer_bind]
    cases (push peer bytes n).answer <;> exact hpush.append_nil
  | exchange peer bytes => exact hush_exchange h peer bytes
  | close peer =>
    have hclose := hush_close h peer
    simp only [Network.step, state_bind, events_bind, answer_bind]
    cases hanswer : (close peer n).answer with
    | none =>
      have hnothing :
          (fun other => if peer = other then (none : Option (List UInt8)).getD [] else []) =
            fun _ => [] :=
        funext fun _ => ite_self _
      rw [hanswer, hnothing] at hclose
      exact hclose.append_nil
    | some bytes =>
      rw [hanswer] at hclose
      rw [NetworkStep.reads_of_brings peer _ fun other => rfl]
      exact hclose.append_nil
  | session peer bytes => exact (hush_session h peer bytes).append_nil
  | device operations =>
    refine ⟨⟨h.stopped, h.dead⟩, rfl, ?_, fun peer => List.prefix_refl _⟩
    refine (congrArg _ (List.append_nil _)).trans ?_
    exact List.filter_eq_self.mpr (n.device.isDevice_run operations)

theorem hush_runSteps (h : n.Silent) (steps : List NetworkStep) :
    Hush n (steps.flatMap NetworkStep.ownOperations)
      (fun peer => (readBy peer (steps.zip (runSteps steps n).answer)).flatten)
      (runSteps steps n).state (runSteps steps n).events := by
  induction steps generalizing n with
  | nil => exact .of_device_eq h rfl (fun e he => nomatch he) fun peer => List.prefix_refl _
  | cons s steps ih =>
    have hfirst := hush_step h s
    let later := runSteps steps (Network.step s n).state
    have hreads :
        (fun peer => (readBy peer ((s :: steps).zip (runSteps (s :: steps) n).answer)).flatten) =
          fun peer => s.reads (Network.step s n).answer peer ++
            (readBy peer (steps.zip later.answer)).flatten :=
      funext fun peer => List.flatten_append
    rw [hreads]
    exact hfirst.trans (ih hfirst.silent).append_nil

/-! ## Finality -/

/-- A stop is final.  Whatever has happened before it, and whatever happens after it, with new
listeners and new connections: the device carries out and reports what its owner does with it, and
nothing else; a client reads nothing but answers that waited for it at the stop; no connection is
live, and bytes that arrive are not looked at; and a further stop ends a listener at most. -/
theorem stop_is_final (n : Network) (steps : List NetworkStep) :
    let done := runSteps (.stop :: steps) n
    let owned := n.device.run (steps.flatMap NetworkStep.ownOperations)
    done.state.device = owned.state ∧
      done.events.filter (·.isDevice) = owned.events ∧
      (∀ peer, (readBy peer ((.stop :: steps).zip done.answer)).flatten ++
        done.state.unread peer <+: n.unread peer) ∧
      (∀ c ∈ done.state.connections, c.live = false) ∧
      (∀ peer bytes, (receive peer bytes done.state).state.device = done.state.device) ∧
      (stop done.state).state = { done.state with listening := false } ∧
      (stop done.state).events = if done.state.listening then [.listenerStopped] else [] := by
  intro done owned
  -- The stop silences the network, and no step after it brings a connection back to life.
  have hstop := hush_stop n
  have hlater := hush_runSteps hstop.silent steps
  have hall := hstop.append_nil.trans hlater.append_nil
  refine ⟨hall.device_eq, hall.events_eq, hall.unread, hall.silent.dead, ?_, hall.silent.stop_eq⟩
  intro peer bytes
  have hpush := (hall.silent.push peer bytes).2.2.device_eq
  unfold receive
  simp only [state_bind]
  cases (push peer bytes done.state).answer <;> exact hpush

/-- A stop before the first start has this effect too: the listener takes the client in, and the
request that it sends is lost. -/
example :
    (runSteps [.stop, .start (.ok "127.0.0.1"), .session "a" (Frame.mk 7 1 [3, 0, 2, 0, 2]).toBytes]
      { device := fourCellDevice }).answer = [.done, .done, .session (.ok (true, []))] := by
  rfl

end Network

end Fieldbus
