import CircuitDraft.Draft.Basic

namespace CircuitDraft

/-- A request that changes a draft. -/
inductive Call
  | secretInput (leaf : Leaf)
  | publicInput (leaf : Leaf)
  | internal (label : String)
  | circuitInput (id : CircuitId) (leaf : Leaf)
  | circuitInternal (id : CircuitId) (label : String)
  | register (id : CircuitId)
  | registerNext
  | getOrRegister (id : CircuitId)
  | addOutput (id : CircuitId) (var : Variable)
deriving DecidableEq

/-- What a call that is not refused answers. -/
inductive Reply (K : PrimeField)
  | expr (e : LinearExpr K.Element)
  | circuit (id : CircuitId)
  | lookup (found : Lookup)
  | marked
deriving DecidableEq

namespace Draft

variable {K : PrimeField}

def perform (draft : Draft K) : Call → Outcome (Draft K) (Reply K)
  | .secretInput leaf => (draft.secretInput leaf).map .expr
  | .publicInput leaf => (draft.publicInput leaf).map .expr
  | .internal label => (draft.internal label).map .expr
  | .circuitInput id leaf => (draft.circuitInput id leaf).map .expr
  | .circuitInternal id label => (draft.circuitInternal id label).map .expr
  | .register id => (draft.register id).map .circuit
  | .registerNext => draft.registerNext.map .circuit
  | .getOrRegister id => (draft.getOrRegister id).map .lookup
  | .addOutput id var => (draft.addOutput id var).map fun _ => .marked

/-- The draft after a sequence of calls, refused ones included. -/
def run (draft : Draft K) (calls : List Call) : Draft K :=
  calls.foldl (fun draft call => (draft.perform call).state) draft

/-- The outcome of each call of a sequence. -/
def outcomes (draft : Draft K) : List Call → List (Outcome (Draft K) (Reply K))
  | [] => []
  | call :: rest =>
      let outcome := draft.perform call
      outcome :: outcome.state.outcomes rest

def answers (draft : Draft K) (calls : List Call) : List (Except BuildError (Reply K)) :=
  (draft.outcomes calls).map Outcome.answer

def events (draft : Draft K) (calls : List Call) : List Event :=
  (draft.outcomes calls).flatMap Outcome.events

@[simp]
theorem run_nil (draft : Draft K) : draft.run [] = draft :=
  rfl

@[simp]
theorem run_cons (draft : Draft K) (call : Call) (rest : List Call) :
    draft.run (call :: rest) = (draft.perform call).state.run rest :=
  rfl

@[simp]
theorem run_append (draft : Draft K) (calls later : List Call) :
    draft.run (calls ++ later) = (draft.run calls).run later :=
  List.foldl_append

theorem outcomes_append (draft : Draft K) (calls later : List Call) :
    draft.outcomes (calls ++ later) =
      draft.outcomes calls ++ (draft.run calls).outcomes later := by
  induction calls generalizing draft with
  | nil => rfl
  | cons call rest ih => exact congrArg _ (ih _)

@[simp]
theorem length_outcomes (draft : Draft K) (calls : List Call) :
    (draft.outcomes calls).length = calls.length := by
  induction calls generalizing draft with
  | nil => rfl
  | cons call rest ih => exact congrArg (· + 1) (ih _)

end Draft

end CircuitDraft
