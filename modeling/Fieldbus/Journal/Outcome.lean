import Fieldbus.Journal.Event

/-!
# Outcomes

An operation on a state leaves an answer, the state afterwards, and the events on the way in the
order in which they happened.  A `Process` is an operation that waits for a state; processes are put
one after the other, and their events are strung together.
-/

namespace Fieldbus

/-- What an operation on a state leaves. -/
structure Outcome (σ α : Type) where
  answer : α
  state : σ
  events : List Event := []

namespace Outcome

variable {σ α β : Type}

/-- The outcome with another answer. -/
def map (f : α → β) (o : Outcome σ α) : Outcome σ β :=
  { o with answer := f o.answer }

/-- Goes on with `next` on the state that is left. -/
def andThen (o : Outcome σ α) (next : α → σ → Outcome σ β) : Outcome σ β :=
  let rest := next o.answer o.state
  { rest with events := o.events ++ rest.events }

/-- Goes on with `next` on the state that is left, unless the answer is an error. -/
def andTry {ε : Type} (o : Outcome σ (Except ε α)) (next : α → σ → Outcome σ (Except ε β)) :
    Outcome σ (Except ε β) :=
  o.andThen fun
    | .error e, s => { answer := .error e, state := s }
    | .ok a, s => next a s

end Outcome

/-- An operation on a state. -/
def Process (σ α : Type) : Type :=
  σ → Outcome σ α

namespace Process

variable {σ α : Type}

instance : Monad (Process σ) where
  pure a := fun s => { answer := a, state := s }
  bind p f := fun s => (p s).andThen f

instance : MonadStateOf σ (Process σ) where
  get := fun s => { answer := s, state := s }
  set s := fun _ => { answer := (), state := s }
  modifyGet f := fun s => { answer := (f s).1, state := (f s).2 }

/-- Carries out the process on a state. -/
def run (p : Process σ α) (s : σ) : Outcome σ α := p s

/-- Carries out a process on a part of the state. -/
def within {τ : Type} (part : σ → τ) (put : σ → τ → σ) (p : Process τ α) : Process σ α := fun s =>
  let done := p (part s)
  { answer := done.answer
    state := put s done.state
    events := done.events }

/-- Reports one event. -/
def report (e : Event) : Process σ Unit :=
  fun s => { answer := (), state := s, events := [e] }

/-- Reports events in order. -/
def reportAll (events : List Event) : Process σ Unit :=
  fun s => { answer := (), state := s, events }

end Process

end Fieldbus
