import Mathlib.Data.List.Forall2
import Fieldbus.Proofs.Network.Clients
import Fieldbus.Proofs.Wire.Queries

/-!
# Queries of several clients

Clients send their queries on connections of their own, cut into deliveries anywhere, and the
deliveries of all of them come in any order.  The device carries out each query when its last byte
has arrived: `arrivals` lists the queries in this order, and `Device.repliesTo` the frames that
answer one client.  `Attends` says where the connection of a client stands after some deliveries;
every delivery keeps it.
-/

namespace Fieldbus

/-! ## Deliveries -/

/-- Bytes that a client sends at a time.  It may wait for a frame then. -/
structure Delivery where
  peer : String
  bytes : List UInt8
  reads : Bool

/-- A query whose last byte has arrived, and the client that sent it. -/
structure Arrival where
  peer : String
  query : Query

namespace Delivery

def step (d : Delivery) : NetworkStep :=
  if d.reads then .exchange d.peer d.bytes else .push d.peer d.bytes

/-- The bytes that have arrived from a client. -/
def received (peer : String) (deliveries : List Delivery) : List UInt8 :=
  (deliveries.filter (·.peer = peer)).flatMap (·.bytes)

/-- The queries whose last byte comes with a delivery that is behind others.  What each client has
to send are its `queries`, one after the other. -/
def completes (queries : String → List Query) (before : List Delivery) (d : Delivery) :
    List Query :=
  let earlier := Query.completed (queries d.peer) (received d.peer before).length
  (Query.completed (queries d.peer) (received d.peer (before ++ [d])).length).drop earlier.length

/-- The queries of all clients in the order in which their last byte arrives. -/
def arrivals (queries : String → List Query) (before : List Delivery) :
    List Delivery → List Arrival
  | [] => []
  | d :: later =>
    (d.completes queries before).map (Arrival.mk d.peer) ++ arrivals queries (before ++ [d]) later

variable {d : Delivery} {before later : List Delivery} {peer : String}

theorem received_append (peer : String) (before later : List Delivery) :
    received peer (before ++ later) = received peer before ++ received peer later := by
  rw [received, List.filter_append, List.flatMap_append]
  rfl

theorem received_self (d : Delivery) : received d.peer [d] = d.bytes := by
  simp [received]

theorem received_of_ne (h : peer ≠ d.peer) : received peer [d] = [] := by
  simp [received, Ne.symm h]

/-- The queries that a delivery completes come right behind those that were complete. -/
theorem completed_append_completes (queries : String → List Query) (before : List Delivery)
    (d : Delivery) :
    Query.completed (queries d.peer) (received d.peer before).length ++ d.completes queries before =
      Query.completed (queries d.peer) (received d.peer (before ++ [d])).length := by
  have hlength : (received d.peer before).length ≤ (received d.peer (before ++ [d])).length := by
    rw [received_append, List.length_append]
    exact Nat.le_add_right ..
  rcases Query.completed_prefix (queries d.peer) hlength with ⟨new, hnew⟩
  simp only [completes]
  rw [← hnew, List.drop_left]

/-- The queries of one client arrive in the order in which it sends them. -/
theorem completed_append_arrivals (queries : String → List Query) (peer : String)
    (before later : List Delivery) :
    Query.completed (queries peer) (received peer before).length ++
        ((arrivals queries before later).filter (·.peer = peer)).map (·.query) =
      Query.completed (queries peer) (received peer (before ++ later)).length := by
  induction later generalizing before with
  | nil =>
    rw [List.append_nil]
    exact List.append_nil _
  | cons d later ih =>
    have hlater := ih (before ++ [d])
    rw [List.append_assoc, List.singleton_append] at hlater
    rw [arrivals, List.filter_append, List.map_append, ← hlater, ← List.append_assoc]
    congr 1
    by_cases hpeer : peer = d.peer
    · subst hpeer
      have hown : ((d.completes queries before).map (Arrival.mk d.peer)).filter
          (·.peer = d.peer) = (d.completes queries before).map (Arrival.mk d.peer) := by
        simp [List.filter_eq_self]
      rw [hown, List.map_map, ← completed_append_completes]
      exact congrArg _ (List.map_id _)
    · -- What other clients send completes none of these queries.
      have hnone : ((d.completes queries before).map (Arrival.mk d.peer)).filter
          (·.peer = peer) = [] := by
        simp [List.filter_eq_nil_iff, Ne.symm hpeer]
      rw [hnone, received_append, received_of_ne hpeer, List.append_nil]
      exact List.append_nil _

end Delivery

/-! ## What clients read -/

/-- What a client reads when a step is taken. -/
def NetworkStep.brings (peer : String) : NetworkStep × NetworkAnswer → List (List UInt8)
  | (.exchange other _, .frame bytes) | (.close other, .rest bytes)
  | (.session other _, .session (.ok (_, bytes))) => if other = peer then [bytes] else []
  | _ => []

/-- What a client reads in steps one after the other, piece by piece. -/
def readBy (peer : String) (seen : List (NetworkStep × NetworkAnswer)) : List (List UInt8) :=
  seen.flatMap (NetworkStep.brings peer)

/-- The frame answers the query: for the same transaction and unit, under the same function code
with the body of a response, or under the code with its highest bit set with an exception. -/
structure Query.AnsweredBy (q : Query) (f : Frame) : Prop where
  transaction_eq : f.transaction = q.transaction
  unitId_eq : f.unitId = q.unitId
  message_eq : (∃ response : Response, f.message = q.code :: response.body) ∨
    ∃ e : ExceptionCode, f.message = [q.code + 0x80, e.toByte]

theorem Query.answeredBy_reply (q : Query) (answer : Except ExceptionCode Response) :
    q.AnsweredBy (q.reply answer) := by
  cases answer with
  | error e => exact ⟨rfl, rfl, Or.inr ⟨e, rfl⟩⟩
  | ok response => exact ⟨rfl, rfl, Or.inl ⟨response, rfl⟩⟩

namespace Device

/-- The frames that answer one client, when queries are carried out as they arrive. -/
def repliesTo (peer : String) (d : Device) : List Arrival → List Frame
  | [] => []
  | a :: later =>
    let done := d.serve a.query.unitId a.query.request
    let frames := done.state.repliesTo peer later
    if a.peer = peer then a.query.reply done.answer :: frames else frames

theorem repliesTo_append_self (d : Device) (peer : String) (queries : List Query)
    (later : List Arrival) :
    d.repliesTo peer (queries.map (Arrival.mk peer) ++ later) =
      d.replies queries ++ (d.run (queries.map Query.operation)).state.repliesTo peer later := by
  induction queries generalizing d with
  | nil => rfl
  | cons q queries ih =>
    have hrest := ih (d.serve q.unitId q.request).state
    rw [List.map_cons, List.cons_append, repliesTo, if_pos rfl]
    exact congrArg _ hrest

theorem repliesTo_append_other (d : Device) {peer other : String} (h : peer ≠ other)
    (queries : List Query) (later : List Arrival) :
    d.repliesTo peer (queries.map (Arrival.mk other) ++ later) =
      (d.run (queries.map Query.operation)).state.repliesTo peer later := by
  induction queries generalizing d with
  | nil => rfl
  | cons q queries ih =>
    rw [List.map_cons, List.cons_append, repliesTo, if_neg (Ne.symm h)]
    exact ih (d.serve q.unitId q.request).state

/-- A client gets one frame for each of its queries, in their order. -/
theorem answeredBy_repliesTo (d : Device) (peer : String) (order : List Arrival) :
    List.Forall₂ Query.AnsweredBy ((order.filter (·.peer = peer)).map (·.query))
      (d.repliesTo peer order) := by
  induction order generalizing d with
  | nil => exact .nil
  | cons a later ih =>
    have hlater := ih (d.serve a.query.unitId a.query.request).state
    rw [repliesTo]
    by_cases hpeer : a.peer = peer
    · have hfirst : (a :: later).filter (·.peer = peer) = a :: later.filter (·.peer = peer) :=
        List.filter_cons_of_pos (decide_eq_true hpeer)
      rw [if_pos hpeer, hfirst]
      exact .cons (a.query.answeredBy_reply _) hlater
    · have hnone : (a :: later).filter (·.peer = peer) = later.filter (·.peer = peer) :=
        List.filter_cons_of_neg (by simp [hpeer])
      rw [if_neg hpeer, hnone]
      exact hlater

end Device

/-! ## One delivery -/

namespace Network

open Process
open Delivery (received arrivals)

variable {n : Network} {peer : String} {kept kept' : List UInt8} {unread frames : List Frame}
  {d : Delivery} {before later : List Delivery} {queries : String → List Query}
  {tails : String → List UInt8}

/-- The client has a connection that is live, on which `kept` has arrived behind the last query and
`unread` waits to be read. -/
def Serves (peer : String) (kept : List UInt8) (unread : List Frame) (n : Network) : Prop :=
  (∃ c, n.find? peer = some c ∧ c.live = true ∧ c.kept = kept ∧
      c.sent = unread.flatMap Frame.toBytes) ∧
    ∀ f ∈ unread, f.message.length ≤ maxMessageSize

theorem Serves.of_find?_eq {n' : Network} (h : Serves peer kept unread n)
    (hsame : n'.find? peer = n.find? peer) : Serves peer kept unread n' := by
  rw [Serves, hsame]
  exact h

/-- Bytes that are served without a breach leave the frames that answer them behind those that
wait. -/
theorem Serves.push (h : Serves peer kept unread n) {bytes : List UInt8}
    (hserved : (n.device.serveBytes (kept ++ bytes)).answer =
      { sent := frames.flatMap Frame.toBytes, kept := kept' })
    (hsize : ∀ f ∈ frames, f.message.length ≤ maxMessageSize) :
    let pushed := Network.push peer bytes n
    pushed.state.device = (n.device.serveBytes (kept ++ bytes)).state ∧
      Serves peer kept' (unread ++ frames) pushed.state ∧
      ∃ c, pushed.answer = some c ∧ c.peer = peer ∧ c.live = true ∧ c.kept = kept' ∧
        c.sent = (unread ++ frames).flatMap Frame.toBytes := by
  rcases h with ⟨⟨c, hfind, hlive, rfl, hsent⟩, hunread⟩
  rcases push_of_some hfind bytes with ⟨hanswer, hstate⟩
  have hbreach : (n.device.serveBytes (c.kept ++ bytes)).answer.breach = none := by rw [hserved]
  rcases feed_of_served hlive hbreach with ⟨hfed, hleft⟩
  rw [hserved] at hfed
  have hpeer : c.peer = peer := peer_of_find? hfind
  have hsent' : c.sent ++ frames.flatMap Frame.toBytes =
      (unread ++ frames).flatMap Frame.toBytes := by
    rw [List.flatMap_append, ← hsent]
  have hfound := find?_push hanswer
  rw [hfed] at hanswer hfound
  refine ⟨?_, ⟨⟨_, hfound, hlive, rfl, hsent'⟩, ?_⟩, _, hanswer, hpeer, hlive, rfl, hsent'⟩
  · rw [hstate, hleft]
    rfl
  · intro f hf
    exact (List.mem_append.mp hf).elim (hunread f) (hsize f)

theorem exchange_of_frame {c : Connection} {bytes rest : List UInt8} {f : Frame}
    (hanswer : (Network.push peer bytes n).answer = some c)
    (hscan : Frame.scan c.sent = .frame f rest) :
    (exchange peer bytes n).answer = .frame f.toBytes ∧
      (exchange peer bytes n).state =
        (Network.push peer bytes n).state.put { c with sent := rest } := by
  unfold exchange
  simp only [answer_bind, state_bind, hanswer, hscan]
  exact ⟨rfl, rfl⟩

theorem exchange_of_nothing {c : Connection} {bytes : List UInt8}
    (hanswer : (Network.push peer bytes n).answer = some c) (hlive : c.live = true)
    (hsent : c.sent = []) :
    (exchange peer bytes n).answer = .silence ∧
      (exchange peer bytes n).state = (Network.push peer bytes n).state := by
  unfold exchange
  simp only [answer_bind, state_bind, hanswer, hsent, scan_nil, hlive]
  exact ⟨rfl, rfl⟩

/-- An exchange brings the client the first frame that it has not read. -/
theorem Serves.exchange (h : Serves peer kept unread n) {bytes : List UInt8}
    (hserved : (n.device.serveBytes (kept ++ bytes)).answer =
      { sent := frames.flatMap Frame.toBytes, kept := kept' })
    (hsize : ∀ f ∈ frames, f.message.length ≤ maxMessageSize) :
    let done := Network.exchange peer bytes n
    done.state.device = (n.device.serveBytes (kept ++ bytes)).state ∧
      ∃ unread', Serves peer kept' unread' done.state ∧
        NetworkStep.brings peer (.exchange peer bytes, done.answer) ++ unread'.map Frame.toBytes =
          (unread ++ frames).map Frame.toBytes := by
  rcases h.push hserved hsize with ⟨hdevice, hserves, c, hanswer, hpeer, hlive, hkept, hsent⟩
  cases hframes : unread ++ frames with
  | nil =>
    rw [hframes] at hsent hserves
    rcases exchange_of_nothing hanswer hlive hsent with ⟨hsilence, hstate⟩
    simp only [hsilence, hstate]
    exact ⟨hdevice, [], hserves, rfl⟩
  | cons f rest =>
    rw [hframes] at hsent hserves
    -- The header has room for the length, so that the client finds the frame where it begins.
    have hfits : f.message.length < 65535 :=
      Nat.lt_of_le_of_lt (hserves.2 f List.mem_cons_self) (by decide)
    have hscan : Frame.scan c.sent = .frame f (rest.flatMap Frame.toBytes) := by
      rw [hsent]
      exact f.scan_toBytes_append _ hfits
    rcases exchange_of_frame hanswer hscan with ⟨hframe, hstate⟩
    simp only [hframe, hstate]
    have hfound := find?_put_self (Network.push peer bytes n).state
      { c with sent := rest.flatMap Frame.toBytes }
    refine ⟨hdevice, rest, ⟨⟨_, (congrArg _ hpeer.symm).trans hfound, hlive, hkept, rfl⟩, ?_⟩, ?_⟩
    · intro f' hf'
      exact hserves.2 f' (List.mem_cons_of_mem f hf')
    · rw [NetworkStep.brings, if_pos rfl]
      rfl

/-- A delivery whose bytes are served without a breach. -/
theorem Serves.step (h : Serves d.peer kept unread n)
    (hserved : (n.device.serveBytes (kept ++ d.bytes)).answer =
      { sent := frames.flatMap Frame.toBytes, kept := kept' })
    (hsize : ∀ f ∈ frames, f.message.length ≤ maxMessageSize) :
    let done := Network.step d.step n
    done.state.device = (n.device.serveBytes (kept ++ d.bytes)).state ∧
      ∃ unread', Serves d.peer kept' unread' done.state ∧
        NetworkStep.brings d.peer (d.step, done.answer) ++ unread'.map Frame.toBytes =
          (unread ++ frames).map Frame.toBytes := by
  unfold Delivery.step
  split
  · exact h.exchange hserved hsize
  · rcases h.push hserved hsize with ⟨hdevice, hserves, -⟩
    simp only [state_step_push]
    exact ⟨hdevice, unread ++ frames, hserves, rfl⟩

/-- A delivery is nothing to other clients. -/
theorem step_delivery_other (h : peer ≠ d.peer) :
    (Network.step d.step n).state.find? peer = n.find? peer ∧
      NetworkStep.brings peer (d.step, (Network.step d.step n).answer) = [] := by
  unfold Delivery.step
  split
  · refine ⟨(concerns_exchange d.peer d.bytes n).find?_eq h, ?_⟩
    cases hanswer : (Network.step (.exchange d.peer d.bytes) n).answer with
    | frame bytes => exact if_neg (Ne.symm h)
    | _ => rfl
  · rw [state_step_push]
    exact ⟨(concerns_push d.peer d.bytes n).find?_eq h, rfl⟩

/-! ## Deliveries one after the other -/

/-- After some deliveries the connection of a client has kept what is behind the last query that is
complete, and `unread` waits to be read. -/
def Attends (queries : String → List Query) (before : List Delivery) (peer : String)
    (unread : List Frame) (n : Network) : Prop :=
  ∃ kept, received peer before =
      (Query.completed (queries peer) (received peer before).length).flatMap Query.toBytes ++ kept ∧
    Serves peer kept unread n

theorem Attends.other {n' : Network} (h : Attends queries before peer unread n)
    (hpeer : peer ≠ d.peer) (hsame : n'.find? peer = n.find? peer) :
    Attends queries (before ++ [d]) peer unread n' := by
  rcases h with ⟨kept, hreceived, hserves⟩
  have hnothing : received peer (before ++ [d]) = received peer before := by
    rw [Delivery.received_append, Delivery.received_of_ne hpeer, List.append_nil]
  exact ⟨kept, hnothing.symm ▸ hreceived, hserves.of_find?_eq hsame⟩

/-- The device carries out what a delivery completes, and the frames that answer it wait behind
those that waited. -/
theorem Attends.step (h : Attends queries before d.peer unread n)
    (hstream : received d.peer (before ++ d :: later) =
      (queries d.peer).flatMap Query.toBytes ++ tails d.peer)
    (htail : Frame.Begins (tails d.peer))
    (hfits : ∀ f ∈ n.device.replies (d.completes queries before),
      f.message.length ≤ maxMessageSize) :
    let done := Network.step d.step n
    done.state.device =
        (n.device.run ((d.completes queries before).map Query.operation)).state ∧
      ∃ unread', Attends queries (before ++ [d]) d.peer unread' done.state ∧
        NetworkStep.brings d.peer (d.step, done.answer) ++ unread'.map Frame.toBytes =
          (unread ++ n.device.replies (d.completes queries before)).map Frame.toBytes := by
  rcases h with ⟨kept, hreceived, hserves⟩
  have hmore : received d.peer (before ++ [d]) ++ received d.peer later =
      (queries d.peer).flatMap Query.toBytes ++ tails d.peer := by
    rw [← hstream, ← Delivery.received_append, List.append_assoc, List.singleton_append]
  rcases Query.cut hmore htail with ⟨kept', hcut, hkept'⟩
  -- What was kept and what arrives are the queries that become complete and what is kept now.
  have hbytes : kept ++ d.bytes =
      (d.completes queries before).flatMap Query.toBytes ++ kept' := by
    let earlier := Query.completed (queries d.peer) (received d.peer before).length
    refine (List.append_right_inj (earlier.flatMap Query.toBytes)).mp ?_
    calc earlier.flatMap Query.toBytes ++ (kept ++ d.bytes)
        = received d.peer before ++ d.bytes := by rw [← List.append_assoc, ← hreceived]
      _ = received d.peer (before ++ [d]) := by
          rw [Delivery.received_append, Delivery.received_self]
      _ = (earlier ++ d.completes queries before).flatMap Query.toBytes ++ kept' := by
          rw [Delivery.completed_append_completes]
          exact hcut
      _ = _ := by rw [List.flatMap_append, List.append_assoc]
  rcases n.device.serveBytes_queries hkept' hfits with ⟨hserved, hstate⟩
  rw [← hbytes] at hserved hstate
  rcases hserves.step hserved hfits with ⟨hdevice, unread', hserves', hread⟩
  exact ⟨hdevice.trans hstate, unread', ⟨kept', hcut, hserves'⟩, hread⟩

/-- However many deliveries there are, the device carries out the queries in the order in which they
arrive, and every client has read the frames that answer it or can read them. -/
theorem attends_runSteps (before : List Delivery) (htails : ∀ peer, Frame.Begins (tails peer))
    (hstream : ∀ peer, received peer (before ++ later) =
      (queries peer).flatMap Query.toBytes ++ tails peer)
    (hopen : ∀ d ∈ later, ∃ unread, Attends queries before d.peer unread n)
    (hfits : ∀ f ∈ n.device.replies ((arrivals queries before later).map (·.query)),
      f.message.length ≤ maxMessageSize) :
    let done := runSteps (later.map Delivery.step) n
    done.state.device =
        (n.device.run ((arrivals queries before later).map (·.query.operation))).state ∧
      ∀ peer unread, Attends queries before peer unread n →
        ∃ unread', Attends queries (before ++ later) peer unread' done.state ∧
          readBy peer ((later.map Delivery.step).zip done.answer) ++ unread'.map Frame.toBytes =
            (unread ++ n.device.repliesTo peer (arrivals queries before later)).map
              Frame.toBytes := by
  -- The deliveries behind grow by what those ahead lose: `Attends` is about the former, and what a
  -- client sends in all does not change.
  induction later generalizing before n with
  | nil =>
    refine ⟨rfl, fun peer unread h => ⟨unread, (List.append_nil before).symm ▸ h, ?_⟩⟩
    exact (congrArg (List.map Frame.toBytes) (List.append_nil unread)).symm
  | cons d later ih =>
    have hqueries : (arrivals queries before (d :: later)).map (·.query) =
        d.completes queries before ++ (arrivals queries (before ++ [d]) later).map (·.query) := by
      rw [arrivals, List.map_append, List.map_map]
      exact congrArg (· ++ _) (List.map_id _)
    rw [hqueries, Device.replies_append] at hfits
    rcases hopen d List.mem_cons_self with ⟨unread₀, hattends₀⟩
    have hone {unread : List Frame} (h : Attends queries before d.peer unread n) :=
      h.step (hstream d.peer) (htails d.peer) fun f hf => hfits f (List.mem_append_left _ hf)
    have hdevice := (hone hattends₀).1
    -- The other clients stand where they stood.
    have hothers {peer : String} {unread : List Frame} (hpeer : peer ≠ d.peer)
        (h : Attends queries before peer unread n) :
        Attends queries (before ++ [d]) peer unread (Network.step d.step n).state :=
      h.other hpeer (step_delivery_other hpeer).1
    have hstream' (peer : String) : received peer (before ++ [d] ++ later) =
        (queries peer).flatMap Query.toBytes ++ tails peer := by
      rw [List.append_assoc]
      exact hstream peer
    have hopen' : ∀ d' ∈ later,
        ∃ unread, Attends queries (before ++ [d]) d'.peer unread (Network.step d.step n).state := by
      intro d' hd'
      by_cases hpeer : d'.peer = d.peer
      · rcases (hone hattends₀).2 with ⟨unread', hattends', -⟩
        exact ⟨unread', hpeer ▸ hattends'⟩
      · rcases hopen d' (List.mem_cons_of_mem d hd') with ⟨unread', hattends'⟩
        exact ⟨unread', hothers hpeer hattends'⟩
    rcases ih _ hstream' hopen' fun f hf => hfits f (List.mem_append_right _ (hdevice ▸ hf))
      with ⟨hlast, hrest⟩
    rw [List.append_assoc, List.singleton_append] at hrest
    refine ⟨?_, ?_⟩
    · refine hlast.trans ?_
      rw [hdevice, arrivals, List.map_append, List.map_map, Device.run_append]
      rfl
    · intro peer unread h
      have hseen : readBy peer (((d :: later).map Delivery.step).zip
            (runSteps ((d :: later).map Delivery.step) n).answer) =
          NetworkStep.brings peer (d.step, (Network.step d.step n).answer) ++
            readBy peer ((later.map Delivery.step).zip
              (runSteps (later.map Delivery.step) (Network.step d.step n).state).answer) :=
        rfl
      by_cases hpeer : peer = d.peer
      · subst hpeer
        rcases (hone h).2 with ⟨unread₁, hattends, hread⟩
        rcases hrest d.peer unread₁ hattends with ⟨unread', hattends', hread'⟩
        refine ⟨unread', hattends', ?_⟩
        rw [hseen, List.append_assoc, hread', List.map_append, ← List.append_assoc, hread, hdevice,
          arrivals, Device.repliesTo_append_self, ← List.map_append, List.append_assoc]
      · rcases hrest peer unread (hothers hpeer h) with ⟨unread', hattends', hread'⟩
        refine ⟨unread', hattends', ?_⟩
        rw [hseen, (step_delivery_other hpeer).2, List.nil_append, hread', hdevice, arrivals,
          Device.repliesTo_append_other _ hpeer]

/-! ## Every query is answered -/

/-- A client that closes its connection reads what it has not read, and what it has not sent in full
is lost. -/
theorem Serves.close (h : Serves peer kept unread n) :
    (Network.close peer n).answer = some (unread.flatMap Frame.toBytes) ∧
      (Network.close peer n).state.device = n.device := by
  rcases h with ⟨⟨c, hfind, hlive, -, hsent⟩, -⟩
  have hangs : (hangUp c n).answer.sent = c.sent := by
    rw [hangUp, if_pos hlive, answer_settle]
  unfold Network.close
  simp only [answer_bind, state_bind, answer_get, state_get, hfind]
  exact ⟨congrArg some (hangs.trans hsent), device_hangUp c n⟩

/-- What becomes of a client that had nothing to read, sent its `queries`, and then `tail`.  The
queries of all clients arrived in `order`, at a network with the device `device`, which is `n`
now. -/
structure Attended (device : Device) (order : List Arrival) (peer : String) (queries : List Query)
    (tail : List UInt8) (seen : List (NetworkStep × NetworkAnswer)) (n : Network) : Prop where
  /-- The queries arrive in the order in which they were sent. -/
  arrive : (order.filter (·.peer = peer)).map (·.query) = queries
  /-- Each is answered in one frame, and the frames come in the same order. -/
  answered : List.Forall₂ Query.AnsweredBy queries (device.repliesTo peer order)
  /-- The client has read these frames, or can read them, and nothing else.  The connection is live
  and keeps the tail; if the client closes it, what it has not read is left for it to read, and the
  tail changes nothing. -/
  reads : ∃ unread, Serves peer tail unread n ∧
    readBy peer seen ++ unread.map Frame.toBytes =
      (device.repliesTo peer order).map Frame.toBytes ∧
    (close peer n).answer = some (unread.flatMap Frame.toBytes) ∧
    (close peer n).state.device = n.device

/-- Whatever queries clients send on connections that are live, and however their bytes are cut and
come in between each other: if the answers fit, the device carries the queries out in the order in
which their last bytes arrive, each client gets one frame for each of its queries, in their order,
and a tail that is not complete is answered by nothing. -/
theorem deliveries_attended {deliveries : List Delivery}
    (hopen : ∀ d ∈ deliveries, Serves d.peer [] [] n)
    (hstream : ∀ peer, received peer deliveries =
      (queries peer).flatMap Query.toBytes ++ tails peer)
    (htails : ∀ peer, Frame.Begins (tails peer))
    (hfits : ∀ f ∈ n.device.replies ((arrivals queries [] deliveries).map (·.query)),
      f.message.length ≤ maxMessageSize) :
    let order := arrivals queries [] deliveries
    let steps := deliveries.map Delivery.step
    let done := runSteps steps n
    done.state.device = (n.device.run (order.map (·.query.operation))).state ∧
      ∀ peer, Serves peer [] [] n →
        Attended n.device order peer (queries peer) (tails peer) (steps.zip done.answer)
          done.state := by
  intro order steps done
  have hall (peer : String) :
      Query.completed (queries peer) (received peer deliveries).length = queries peer := by
    rw [hstream, List.length_append]
    exact Query.completed_all ..
  have hfresh {peer : String} (h : Serves peer [] [] n) : Attends queries [] peer [] n := by
    have hnone : Query.completed (queries peer) (received peer []).length = [] :=
      Query.completed_zero _
    refine ⟨[], ?_, h⟩
    rw [hnone]
    rfl
  rcases attends_runSteps [] htails hstream (fun d hd => ⟨[], hfresh (hopen d hd)⟩)
    hfits with ⟨hdevice, hclients⟩
  refine ⟨hdevice, fun peer hserves => ?_⟩
  have harrive : (order.filter (·.peer = peer)).map (·.query) = queries peer := by
    have hcompleted := Delivery.completed_append_arrivals queries peer [] deliveries
    rw [List.nil_append] at hcompleted
    rw [← hall peer, ← hcompleted]
    exact congrArg (· ++ _) (Query.completed_zero _).symm
  refine ⟨harrive, harrive ▸ n.device.answeredBy_repliesTo peer order, ?_⟩
  rcases hclients peer [] (hfresh hserves) with ⟨unread, ⟨kept, hreceived, hlast⟩, hread⟩
  -- All queries are complete, so that nothing but the tail can have been kept.
  have hkept : kept = tails peer := by
    rw [List.nil_append, hall, hstream] at hreceived
    exact (List.append_cancel_left hreceived).symm
  subst hkept
  exact ⟨unread, hlast, hread, hlast.close⟩

/-! ## Two clients -/

/-- A network with two clients that have been taken in. -/
def twoClients : Network :=
  (runSteps [.start, .connect "a", .connect "b"] { device := fourCellDevice }).state

/-- A read of two registers. -/
def readTwo : Query :=
  ⟨7, 1, 3, [0, 2, 0, 2], .readHoldingRegisters 2 2, by decide, rfl⟩

/-- A write to the second of these registers. -/
def writeOne : Query :=
  ⟨8, 1, 6, [0, 3, 0, 9], .writeSingleRegister 3 9, by decide, rfl⟩

/-- A function that no table backs. -/
def reportServer : Query :=
  ⟨9, 1, 0x11, [], .reportServerId, by decide, rfl⟩

def twoStreams (peer : String) : List Query :=
  if peer = "a" then [readTwo, reportServer] else if peer = "b" then [writeOne] else []

def twoTails (peer : String) : List UInt8 :=
  if peer = "a" then [0, 10, 0] else []

/-- The first client is in the middle of its first query when the second client sends its query. -/
def twoDeliveries : List Delivery :=
  [⟨"a", readTwo.toBytes.take 9, false⟩, ⟨"b", writeOne.toBytes, true⟩,
    ⟨"a", readTwo.toBytes.drop 9 ++ reportServer.toBytes ++ [0, 10, 0], true⟩]

/-- The write comes before the read, which began earlier. -/
theorem deliveries_attended_twoClients :
    let order := arrivals twoStreams [] twoDeliveries
    order.map (·.query.transaction) = [8, 7, 9] ∧
      twoClients.device.repliesTo "a" order =
        [⟨7, 1, [3, 4, 0, 0, 0, 9]⟩, ⟨9, 1, [0x91, 1]⟩] ∧
      Attended twoClients.device order "a" (twoStreams "a") [0, 10, 0]
        ((twoDeliveries.map Delivery.step).zip
          (runSteps (twoDeliveries.map Delivery.step) twoClients).answer)
        (runSteps (twoDeliveries.map Delivery.step) twoClients).state := by
  intro order
  have hfresh {peer : String} (h : peer = "a" ∨ peer = "b") : Serves peer [] [] twoClients := by
    rcases h with rfl | rfl
    · exact ⟨⟨_, rfl, rfl, rfl, rfl⟩, fun f hf => nomatch hf⟩
    · exact ⟨⟨_, rfl, rfl, rfl, rfl⟩, fun f hf => nomatch hf⟩
  have hopen : ∀ d ∈ twoDeliveries, Serves d.peer [] [] twoClients := by
    intro d hd
    have hpeers : ∀ d ∈ twoDeliveries, d.peer = "a" ∨ d.peer = "b" := by decide
    exact hfresh (hpeers d hd)
  have hstream : ∀ peer, received peer twoDeliveries =
      (twoStreams peer).flatMap Query.toBytes ++ twoTails peer := by
    intro peer
    by_cases ha : peer = "a"
    · subst ha
      decide
    · by_cases hb : peer = "b"
      · subst hb
        decide
      · simp [received, twoDeliveries, twoStreams, twoTails, Ne.symm ha, Ne.symm hb, ha, hb]
  have htails : ∀ peer, Frame.Begins (twoTails peer) := by
    intro peer
    unfold twoTails
    split
    · exact ⟨⟨10, 1, []⟩, [0, 0, 1, 1], by decide, by decide, by decide⟩
    · exact ⟨⟨10, 1, []⟩, _, by decide, Frame.toBytes_ne_nil _, rfl⟩
  have hfits : ∀ f ∈ twoClients.device.replies (order.map (·.query)),
      f.message.length ≤ maxMessageSize := by
    decide
  exact ⟨by decide, by decide,
    (deliveries_attended hopen hstream htails hfits).2 "a" (hfresh (Or.inl rfl))⟩

end Network

end Fieldbus
