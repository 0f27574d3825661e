import Fieldbus.Journal.Outcome

/-!
# Processes put one after the other

The outcome of a process that is built from others is the outcome of its parts.  A relation between
the state before, the events and the state after that adds up along the parts (`Cumulative`) holds
of the whole if every part upholds it (`Upholds.bind`).
-/

namespace Fieldbus

namespace Process

variable {σ α β : Type}

theorem answer_bind (p : Process σ α) (f : α → Process σ β) (s : σ) :
    ((p >>= f) s).answer = (f (p s).answer (p s).state).answer := by
  rfl

theorem state_bind (p : Process σ α) (f : α → Process σ β) (s : σ) :
    ((p >>= f) s).state = (f (p s).answer (p s).state).state := by
  rfl

theorem answer_get (s : σ) : ((get : Process σ σ) s).answer = s := by
  rfl

theorem state_get (s : σ) : ((get : Process σ σ) s).state = s := by
  rfl

theorem get_bind (f : σ → Process σ β) (s : σ) : ((get : Process σ σ) >>= f) s = f s s := by
  rfl

theorem answer_pure (a : α) (s : σ) : ((pure a : Process σ α) s).answer = a := by
  rfl

theorem state_pure (a : α) (s : σ) : ((pure a : Process σ α) s).state = s := by
  rfl

theorem events_bind (p : Process σ α) (f : α → Process σ β) (s : σ) :
    ((p >>= f) s).events = (p s).events ++ (f (p s).answer (p s).state).events := by
  rfl

theorem events_get (s : σ) : ((get : Process σ σ) s).events = [] := by
  rfl

/-! ## Relations between what was before, what is reported, and what is left -/

/-- The relation holds of what nothing does, and of a whole whose parts it holds of. -/
class Cumulative (R : σ → List Event → σ → Prop) : Prop where
  nil (s : σ) : R s [] s
  append {s s' s'' : σ} {before after : List Event} :
    R s before s' → R s' after s'' → R s (before ++ after) s''

/-- What the process does in a state stands in the relation. -/
def Upholds (R : σ → List Event → σ → Prop) (p : Process σ α) (s : σ) : Prop :=
  R s (p s).events (p s).state

namespace Upholds

variable {R : σ → List Event → σ → Prop} {s : σ}

theorem get_bind {f : σ → Process σ β} (h : Upholds R (f s) s) :
    Upholds R (MonadState.get >>= f) s :=
  h

variable [Cumulative R]

theorem bind {p : Process σ α} {f : α → Process σ β} (hp : Upholds R p s)
    (hf : Upholds R (f (p s).answer) (p s).state) : Upholds R (p >>= f) s :=
  Cumulative.append hp hf

theorem pure (a : α) (s : σ) : Upholds R (Pure.pure a : Process σ α) s :=
  Cumulative.nil s

end Upholds

end Process

end Fieldbus
