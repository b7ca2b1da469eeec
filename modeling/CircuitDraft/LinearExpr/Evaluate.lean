import CircuitDraft.LinearExpr.Basic

namespace CircuitDraft

/-- The value of an expression, and the variables whose value was asked for on the way. -/
structure Evaluation (F : Type) where
  value : Option F
  asked : List Variable
deriving DecidableEq

namespace LinearExpr

variable {F : Type} [Add F] [Mul F] [One F]

/-- Add up terms from left to right, starting at `sum`. The first variable without a value ends
the evaluation, and the constant-one wire is never asked for. -/
def evaluateFrom (assignment : Variable → Option F) : F → List (Term F) → Evaluation F
  | sum, [] => ⟨some sum, []⟩
  | sum, t :: rest =>
      if t.var = .one then
        evaluateFrom assignment (sum + t.coef * 1) rest
      else
        match assignment t.var with
        | none => ⟨none, [t.var]⟩
        | some x =>
            let later := evaluateFrom assignment (sum + t.coef * x) rest
            ⟨later.value, t.var :: later.asked⟩

/-- The value of an expression under a partial assignment of the variables. -/
def evaluate [Zero F] (e : LinearExpr F) (assignment : Variable → Option F) : Evaluation F :=
  evaluateFrom assignment 0 e.terms

end LinearExpr

end CircuitDraft
