import CircuitDraft.BuildError
import CircuitDraft.Event

namespace CircuitDraft

/-- What a call on a state leaves behind: its answer, the state after it, which a refused call has
too, and the events it raised. -/
structure Outcome (σ α : Type) where
  answer : Except BuildError α
  state : σ
  events : List Event := []

namespace Outcome

variable {σ τ α β : Type}

def success (value : α) (state : σ) : Outcome σ α :=
  ⟨.ok value, state, []⟩

def failure (cause : BuildError) (state : σ) : Outcome σ α :=
  ⟨.error cause, state, []⟩

/-- A step that makes all its checks before it changes anything: it gives a value and the state
after it, or it is refused and leaves the state as it was. -/
def ofStep (state : σ) : Except BuildError (α × σ) → Outcome σ α
  | .ok (value, after) => success value after
  | .error cause => failure cause state

/-- A step of the same kind that gives no value. -/
def ofUpdate (state : σ) : Except BuildError σ → Outcome σ Unit
  | .ok after => success () after
  | .error cause => failure cause state

/-- Raise further events after those of the call. -/
def raise (o : Outcome σ α) (events : List Event) : Outcome σ α :=
  { o with events := o.events ++ events }

def map (f : α → β) (o : Outcome σ α) : Outcome σ β :=
  ⟨o.answer.map f, o.state, o.events⟩

/-- See the state of a part as the state of the whole. -/
def within (f : σ → τ) (o : Outcome σ α) : Outcome τ α :=
  ⟨o.answer, f o.state, o.events⟩

/-- Go on with the value and the state of a call that was not refused. -/
def andThen (o : Outcome σ α) (next : α → σ → Outcome σ β) : Outcome σ β :=
  match o.answer with
  | .error cause => ⟨.error cause, o.state, o.events⟩
  | .ok value =>
      let later := next value o.state
      ⟨later.answer, later.state, o.events ++ later.events⟩

end Outcome

end CircuitDraft
