import Fieldbus.Proofs.Wire.Answers

/-!
# Queries one after the other

A query is a request in a frame that a client can send, and `Query.reply` is the frame that answers
it.  A client sends the bytes of its queries one after the other; however the stream is cut, what
has arrived of it consists of the queries whose last byte has arrived and of the beginning of a
frame (`Query.cut`).  A device that serves such bytes answers these queries in their order, as if
they came decoded, and keeps the beginning (`Device.serveBytes_queries`).
-/

namespace Fieldbus

/-! ## Function codes -/

/-- Whatever a reader answers satisfies `P`. -/
def BodyReader.Yields {α : Type} (P : α → Prop) (reader : BodyReader α) : Prop :=
  ∀ body a rest, reader body = .ok (a, rest) → P a

namespace BodyReader.Yields

variable {α β : Type} {P : β → Prop}

theorem pure {b : β} (h : P b) : Yields P (Pure.pure b) := by
  rintro body b' rest ⟨⟩
  exact h

theorem bind {reader : BodyReader α} {next : α → BodyReader β} (h : ∀ a, Yields P (next a)) :
    Yields P (reader >>= next) := by
  intro body b rest hread
  cases hfirst : reader body with
  | error breach =>
    have hfails : (reader >>= next) body = .error breach := by
      simp only [Bind.bind, StateT.bind, hfirst, Except.bind]
    cases hfails.symm.trans hread
  | ok result =>
    have hgoes : (reader >>= next) body = next result.1 result.2 := by
      simp only [Bind.bind, StateT.bind, hfirst, Except.bind]
    exact h result.1 result.2 b rest (hgoes.symm.trans hread)

end BodyReader.Yields

/-- A request that has been read has the function code under which it was sent. -/
theorem BodyReader.yields_request (code : UInt8) :
    Yields (·.functionCode = code) (BodyReader.request code) := by
  unfold request
  split
  -- A code without a form of its own, a request without a body, and the requests with fields.
  case h_12 =>
    split
    · exact .bind fun _ => .pure rfl
    · intro body r rest hread
      cases hread
  case h_9 => exact .pure rfl
  all_goals
    repeat refine .bind fun _ => ?_
    exact .pure rfl

theorem Request.functionCode_of_ofBytes {code : UInt8} {body : List UInt8} {r : Request}
    (hread : Request.ofBytes (code :: body) = .ok r) : r.functionCode = code := by
  rw [ofBytes] at hread
  by_cases hlong : lengthLimited code ∧ maxMessageSize ≤ body.length
  · rw [if_pos hlong] at hread
    cases hread
  · rw [if_neg hlong] at hread
    split at hread
    · cases hread
    · rename_i hbody
      cases hread
      exact BodyReader.yields_request code _ _ _ hbody
    · cases hread

/-- A response has the function code of the request. -/
theorem Device.functionCode_serve {d : Device} {unitId : UInt8} {r : Request}
    {response : Response} (hanswer : (d.serve unitId r).answer = .ok response) :
    response.functionCode = r.functionCode := by
  cases r with
  | maskWriteRegister | reportServerId | custom => cases hanswer
  | writeMultipleCoils start values | writeMultipleRegisters start values =>
    simp only [serve] at hanswer
    split at hanswer
    · cases hanswer
    · rcases answer_reply_eq_ok_iff.mp hanswer with ⟨cells, -, rfl⟩
      rfl
  | _ =>
    rcases answer_reply_eq_ok_iff.mp hanswer with ⟨cells, -, rfl⟩
    rfl

/-! ## The beginning of a frame -/

namespace Frame

/-- The bytes begin a frame, of which more is still to come. -/
def Begins (bytes : List UInt8) : Prop :=
  ∃ (f : Frame) (more : List UInt8), f.message.length < 65535 ∧ more ≠ [] ∧
    bytes ++ more = f.toBytes

theorem toBytes_eq (f : Frame) : f.toBytes =
    wordsBytes [f.transaction, 0, (f.message.length + 1).toUInt16] ++ f.unitId :: f.message :=
  rfl

theorem length_toBytes (f : Frame) : f.toBytes.length = f.message.length + 7 := by
  rw [toBytes_eq, List.length_append, length_wordsBytes, List.length_cons]
  exact Nat.add_comm _ _

theorem toBytes_ne_nil (f : Frame) : f.toBytes ≠ [] :=
  List.cons_ne_nil _ _

/-- The beginning of a beginning is one. -/
theorem Begins.of_append {bytes more : List UInt8} (h : Begins (bytes ++ more)) :
    Begins bytes := by
  rcases h with ⟨f, later, hsize, hlater, hbytes⟩
  refine ⟨f, more ++ later, hsize, List.append_ne_nil_of_right_ne_nil more hlater, ?_⟩
  rw [← List.append_assoc]
  exact hbytes

/-- Whoever has received the beginning of a frame waits. -/
theorem Begins.scan_eq {bytes : List UInt8} (h : Begins bytes) : scan bytes = .waiting := by
  rcases h with ⟨f, more, hsize, hmore, hbytes⟩
  have hshort : bytes.length < f.message.length + 7 := by
    have hlength := congrArg List.length hbytes
    rw [List.length_append, length_toBytes] at hlength
    have hpos : 0 < more.length := List.length_pos_iff.mpr hmore
    omega
  unfold scan
  split
  · rename_i t₁ t₀ p₁ p₀ l₁ l₀ unitId rest
    -- All bytes before the message are there, the length among them.
    have hparts : wordsBytes [f.transaction, 0, (f.message.length + 1).toUInt16] ++
        f.unitId :: f.message = [t₁, t₀, p₁, p₀, l₁, l₀] ++ unitId :: (rest ++ more) :=
      hbytes.symm
    have hhead := (List.append_inj hparts rfl).1
    simp only [wordsBytes, wordBytes, List.flatMap_cons, List.flatMap_nil, List.cons_append,
      List.nil_append, List.cons.injEq] at hhead
    rcases hhead with ⟨-, -, -, -, rfl, rfl, -⟩
    have hread := congrArg UInt16.toNat (wordOf_wordBytes (f.message.length + 1).toUInt16)
    have hlength : (f.message.length + 1).toUInt16.toNat = f.message.length + 1 := by
      have hmod : (f.message.length + 1).toUInt16.toNat = (f.message.length + 1) % 65536 := rfl
      omega
    rw [hread, hlength]
    refine if_pos ?_
    simp only [List.length_cons] at hshort
    omega
  · rfl

end Frame

/-! ## Queries -/

/-- A request in a frame that a client can send. -/
structure Query where
  transaction : UInt16
  unitId : UInt8
  code : UInt8
  body : List UInt8
  request : Request
  size_lt : body.length < 65534
  read : Request.ofBytes (code :: body) = .ok request

namespace Query

def frame (q : Query) : Frame :=
  ⟨q.transaction, q.unitId, q.code :: q.body⟩

def toBytes (q : Query) : List UInt8 :=
  q.frame.toBytes

/-- What the query asks of a device. -/
def operation (q : Query) : Operation :=
  .serve q.unitId q.request

/-- The frame that brings an answer: under the function code, with the body of the response, or
under the code with its highest bit set, with the number of the exception. -/
def reply (q : Query) : Except ExceptionCode Response → Frame
  | .error e => { q.frame with message := [q.code + 0x80, e.toByte] }
  | .ok response => { q.frame with message := q.code :: response.body }

theorem size_frame (q : Query) : q.frame.message.length < 65535 :=
  Nat.succ_lt_succ q.size_lt

theorem functionCode_eq (q : Query) : q.request.functionCode = q.code :=
  Request.functionCode_of_ofBytes q.read

/-- An answer that fits is sent as the reply. -/
theorem answerBytes_of_fits (q : Query) {d : Device}
    (hfits : (q.reply (d.serve q.unitId q.request).answer).message.length ≤ maxMessageSize) :
    answerBytes q.request (d.serve q.unitId q.request).answer =
      .ok (q.reply (d.serve q.unitId q.request).answer).message := by
  cases hanswer : (d.serve q.unitId q.request).answer with
  | error e =>
    have hmessage : answerBytes q.request (.error e) =
        .ok [q.request.functionCode + 0x80, e.toByte] := rfl
    rw [hmessage, q.functionCode_eq]
    rfl
  | ok response =>
    have hbytes : response.toBytes = q.code :: response.body := by
      rw [Response.toBytes, Device.functionCode_serve hanswer, q.functionCode_eq]
    rw [hanswer] at hfits
    have hshort : ¬ maxMessageSize < response.toBytes.length := by
      rw [hbytes]
      exact Nat.not_lt.mpr hfits
    have hmessage : answerBytes q.request (.ok response) = .ok response.toBytes := if_neg hshort
    rw [hmessage, hbytes]
    rfl

/-! ## Streams of queries -/

/-- Of queries sent one after the other, those whose last byte is among the first `count`. -/
def completed : List Query → Nat → List Query
  | [], _ => []
  | q :: later, count =>
    if q.toBytes.length ≤ count then q :: completed later (count - q.toBytes.length) else []

variable {q : Query} {queries : List Query} {bytes more tail : List UInt8} {count : Nat}

theorem completed_of_le (h : q.toBytes.length ≤ count) :
    completed (q :: queries) count = q :: completed queries (count - q.toBytes.length) :=
  if_pos h

theorem completed_of_lt (h : count < q.toBytes.length) : completed (q :: queries) count = [] :=
  if_neg (Nat.not_le.mpr h)

theorem completed_zero (queries : List Query) : completed queries 0 = [] := by
  cases queries with
  | nil => rfl
  | cons q later => exact completed_of_lt (List.length_pos_iff.mpr q.frame.toBytes_ne_nil)

/-- The more bytes there are, the more queries are complete. -/
theorem completed_prefix (queries : List Query) {count' : Nat} (h : count ≤ count') :
    completed queries count <+: completed queries count' := by
  induction queries generalizing count count' with
  | nil => exact List.prefix_refl []
  | cons q later ih =>
    rcases Nat.lt_or_ge count q.toBytes.length with hlt | hle
    · rw [completed_of_lt hlt]
      exact List.nil_prefix
    · rw [completed_of_le hle, completed_of_le (Nat.le_trans hle h)]
      exact (List.prefix_cons_inj q).mpr (ih (Nat.sub_le_sub_right h _))

/-- With all their bytes, all queries are complete. -/
theorem completed_all (queries : List Query) (count : Nat) :
    completed queries ((queries.flatMap toBytes).length + count) = queries := by
  induction queries with
  | nil => rfl
  | cons q later ih =>
    rw [List.flatMap_cons, List.length_append, Nat.add_assoc, completed_of_le (Nat.le_add_right ..),
      Nat.add_sub_cancel_left, ih]

/-- However a stream of queries is cut, the bytes before the cut are those of the complete queries
and the beginning of a frame. -/
theorem cut (h : bytes ++ more = queries.flatMap toBytes ++ tail) (htail : Frame.Begins tail) :
    ∃ kept, bytes = (completed queries bytes.length).flatMap toBytes ++ kept ∧
      Frame.Begins kept := by
  induction queries generalizing bytes with
  | nil =>
    have hall : bytes ++ more = tail := h
    exact ⟨bytes, rfl, (hall.symm ▸ htail).of_append⟩
  | cons q later ih =>
    rw [List.flatMap_cons, List.append_assoc] at h
    rcases Nat.lt_or_ge bytes.length q.toBytes.length with hlt | hle
    · -- The cut is inside the first query.
      rcases List.append_eq_append_iff.mp h with ⟨rest, hquery, -⟩ | ⟨rest, hbytes, -⟩
      · refine ⟨bytes, ?_, q.frame, rest, q.size_frame, ?_, hquery.symm⟩
        · rw [completed_of_lt hlt]
          rfl
        · rintro rfl
          rw [hquery, List.append_nil] at hlt
          exact Nat.lt_irrefl _ hlt
      · rw [hbytes, List.length_append] at hlt
        exact absurd hlt (Nat.not_lt.mpr (Nat.le_add_right ..))
    · rcases List.prefix_of_prefix_length_le ⟨_, rfl⟩ ⟨more, h⟩ hle with ⟨rest, rfl⟩
      rw [List.append_assoc] at h
      rcases ih (List.append_cancel_left h) with ⟨kept, hrest, hkept⟩
      refine ⟨kept, ?_, hkept⟩
      rw [completed_of_le hle, List.length_append, Nat.add_sub_cancel_left, List.flatMap_cons,
        List.append_assoc, ← hrest]

end Query

/-! ## Serving queries -/

namespace Device

variable {d : Device}

/-- The frames that answer queries, carried out one after the other. -/
def replies (d : Device) : List Query → List Frame
  | [] => []
  | q :: later =>
    let done := d.serve q.unitId q.request
    q.reply done.answer :: done.state.replies later

theorem replies_append (d : Device) (before after : List Query) :
    d.replies (before ++ after) =
      d.replies before ++ (d.run (before.map Query.operation)).state.replies after := by
  induction before generalizing d with
  | nil => rfl
  | cons q before ih => exact congrArg _ (ih _)

theorem serveBytes_of_waiting (d : Device) {bytes : List UInt8}
    (hscan : Frame.scan bytes = .waiting) :
    d.serveBytes bytes = { answer := { kept := bytes }, state := d } := by
  rw [serveBytes]
  split
  · rfl
  · rename_i h
    cases hscan.symm.trans h
  · rename_i h
    cases hscan.symm.trans h

/-- A query whose answer fits is answered, and the bytes behind it are served on the device that
its request leaves. -/
theorem serveBytes_query (q : Query) (rest : List UInt8)
    (hfits : (q.reply (d.serve q.unitId q.request).answer).message.length ≤ maxMessageSize) :
    (d.serveBytes (q.toBytes ++ rest)).answer =
        Served.after (q.reply (d.serve q.unitId q.request).answer)
          ((d.serve q.unitId q.request).state.serveBytes rest).answer ∧
      (d.serveBytes (q.toBytes ++ rest)).state =
        ((d.serve q.unitId q.request).state.serveBytes rest).state := by
  have hmessage := q.answerBytes_of_fits hfits
  have hreply : { q.frame with message := (q.reply (d.serve q.unitId q.request).answer).message } =
      q.reply (d.serve q.unitId q.request).answer := by
    cases (d.serve q.unitId q.request).answer <;> rfl
  refine ⟨?_, ?_⟩
  · rw [← hreply]
    exact answer_serveBytes_of_message (f := q.frame) q.size_frame q.read hmessage rest
  · exact state_serveBytes_of_message (f := q.frame) q.size_frame q.read hmessage rest

/-- Bytes of queries whose answers fit are served as the queries are carried out one after the
other, and a beginning of a frame behind them is kept. -/
theorem serveBytes_queries {queries : List Query} {kept : List UInt8} (hkept : Frame.Begins kept)
    (hfits : ∀ f ∈ d.replies queries, f.message.length ≤ maxMessageSize) :
    (d.serveBytes (queries.flatMap Query.toBytes ++ kept)).answer =
        { sent := (d.replies queries).flatMap Frame.toBytes, kept } ∧
      (d.serveBytes (queries.flatMap Query.toBytes ++ kept)).state =
        (d.run (queries.map Query.operation)).state := by
  induction queries generalizing d with
  | nil =>
    rw [List.flatMap_nil, List.nil_append, d.serveBytes_of_waiting hkept.scan_eq]
    exact ⟨rfl, rfl⟩
  | cons q later ih =>
    rcases ih (d := (d.serve q.unitId q.request).state)
      fun f hf => hfits f (List.mem_cons_of_mem _ hf) with ⟨hanswer, hstate⟩
    rcases d.serveBytes_query q (later.flatMap Query.toBytes ++ kept)
      (hfits _ List.mem_cons_self) with ⟨hfirst, hrest⟩
    rw [List.flatMap_cons, List.append_assoc]
    refine ⟨?_, hrest.trans hstate⟩
    rw [hfirst, hanswer]
    rfl

end Device

end Fieldbus
