import Fieldbus.Proofs.Line.Conservation
import Fieldbus.Proofs.Network.Stop

/-!
# Connections on their lines

The device serves a connection by reading its line, and what it does next depends on what the read
answers: bytes are served, a failure is the end and is reported, and an answer without bytes is the
end of what the client sends.  The steps of clients say the same without lines (`steps_hear`).

A stop does no more to a connection than to fire the token of its line.  A read by whose end the
token has fired answers nothing (`Line.read_of_fired`), so that a connection whose line is read on
hangs up, and nothing that has arrived for it is looked at (`attend_of_fired`).  That is what a stop
does to all connections (`stop_eq_attendAll`), and to those that are accepted after it
(`takeIn_eq_attend`).
-/

namespace Fieldbus

open Line (LineAnswer LineStep)

/-- A connection together with the line that it is served on.  The next read asks for `first` bytes
at most, and those after it for as many as `later` says. -/
structure Stream where
  connection : Connection
  line : Line
  first : Nat
  later : List Nat := []

/-- By the end of the next read the token has fired. -/
def Stream.Fired (s : Stream) : Prop :=
  (s.line.read s.first).2.fired = true

instance (s : Stream) : Decidable s.Fired := inferInstanceAs (Decidable (_ = _))

/-- A token that fires has fired by the end of the next read, whatever the near end does before
it. -/
theorem Stream.fired_of_cancel (line : Line) (steps : List LineStep) (c : Connection)
    (first : Nat) (later : List Nat) :
    Stream.Fired
      { connection := c, line := ((line.act .cancel).1.perform steps).2, first, later } :=
  (Line.passes_read _ first).fired (Line.fired_perform rfl steps)

/-- So has one that fires while the read waits for a client that sends nothing. -/
example (c : Connection) :
    Stream.Fired { connection := c, line := .fresh 5000 64 [⟨3000, .cancel⟩], first := 8 } := by
  rfl

namespace Network

open Process

variable {n : Network} {c : Connection} {line : Line} {peer : String}

/-! ## Reading on -/

/-- What the device does with a connection when a read on its line has been answered. -/
def hear (c : Connection) : LineAnswer → Process Network Connection
  | .read [] => hangUp c
  | .read bytes => feed bytes c
  | .failed reason => settle c (some reason.message)
  | .wrote _ | .done => return c

/-- The device serves a connection on its line: it reads until the connection has ended, or has been
given all of its reads. -/
def attend (line : Line) (c : Connection) : List Nat → Process Network Connection
  | [] => return c
  | size :: sizes => do
    if c.live then
      let c ← hear c (line.read size).1
      attend (line.read size).2 c sizes
    else return c

/-- The device serves each connection on its line. -/
def attendAll : List Stream → Process Network (List Connection)
  | [] => return []
  | s :: streams => do
    let c ← attend s.line s.connection (s.first :: s.later)
    let cs ← attendAll streams
    return c :: cs

/-- Bytes, the end and a timeout do to the connection of a client what the device does when it hears
of them on the line. -/
theorem steps_hear (hfind : n.find? peer = some c) :
    (∀ b bytes, push peer (b :: bytes) n = (hear c (.read (b :: bytes)) n).andThen
      fun c n => { answer := some c, state := n.put c }) ∧
    close peer n = (hear c (.read []) n).andThen
      (fun c n => { answer := some c.sent, state := n.forget peer }) ∧
    (c.live = true → expire peer n = (hear c (.failed .timedOut) n).andThen
      fun c n => { answer := (), state := n.put c }) := by
  refine ⟨fun b bytes => ?_, ?_, fun hlive => ?_⟩
  · simp only [push, get_bind, hfind]
    rfl
  · simp only [close, get_bind, hfind]
    rfl
  · simp only [expire, get_bind, hfind, hlive]
    rfl

theorem attend_of_not_live (hlive : c.live = false) (line : Line) (sizes : List Nat) :
    attend line c sizes = pure c := by
  cases sizes with
  | nil => rfl
  | cons size sizes =>
    rw [attend, if_neg (by simp [hlive])]

/-- A connection whose line is read on hangs up, once the token has fired.  It is not read again. -/
theorem attend_of_fired {size : Nat} (h : (line.read size).2.fired = true) (c : Connection)
    (sizes : List Nat) : attend line c (size :: sizes) = hangUp c := by
  funext n
  cases hlive : c.live with
  | false =>
    rw [attend_of_not_live hlive, hangUp_of_not_live hlive]
    rfl
  | true =>
    have hended := (handled_hangUp c n).2
    have hfirst : attend line c (size :: sizes) n =
        (hangUp c n).andThen fun c => attend (line.read size).2 c sizes := by
      rw [attend, if_pos hlive, Line.read_of_fired h]
      rfl
    have hlater : attend (line.read size).2 (hangUp c n).answer sizes = pure (hangUp c n).answer :=
      attend_of_not_live hended _ sizes
    calc attend line c (size :: sizes) n
        = (hangUp c n).andThen fun c => attend (line.read size).2 c sizes := hfirst
      _ = { hangUp c n with events := (hangUp c n).events ++ [] } := by
          simp only [Outcome.andThen, hlater]
          rfl
      _ = hangUp c n := by rw [List.append_nil]

theorem attendAll_of_fired {streams : List Stream} (h : ∀ s ∈ streams, s.Fired) :
    attendAll streams = hangUpAll (streams.map (·.connection)) := by
  induction streams with
  | nil => rfl
  | cons s streams ih =>
    have hrest := ih fun s' hs' => h s' (List.mem_cons_of_mem s hs')
    rw [attendAll, attend_of_fired (h s List.mem_cons_self), hrest]
    rfl

/-! ## Stops -/

/-- A stop fires the tokens of all lines, and every connection whose line is read on ends by that:
no more is done to any of them. -/
theorem stop_eq_attendAll {streams : List Stream}
    (hconnections : streams.map (·.connection) = n.connections) (hfired : ∀ s ∈ streams, s.Fired) :
    stop n = (do
      set { n with stopped := true, listening := false }
      let connections ← attendAll streams
      modify fun n => { n with connections }
      if n.listening then report .listenerStopped : Process Network Unit) n := by
  rw [attendAll_of_fired hfired, hconnections]
  rfl

/-- A client that is taken in after a stop is served on a line whose token has fired already. -/
theorem takeIn_eq_attend {slots size : Nat} (hstopped : n.stopped = true)
    (hslots : n.freeSlots = slots + 1) (hfired : (line.read size).2.fired = true)
    (sizes : List Nat) :
    takeIn peer n = (do
      report (.clientConnected peer)
      set { n with freeSlots := slots }
      attend line { peer, listener := n.listener, live := true } (size :: sizes) :
        Process Network Connection) n := by
  rw [attend_of_fired hfired]
  simp only [takeIn, get_bind, hslots, hstopped, if_true]

end Network

end Fieldbus
