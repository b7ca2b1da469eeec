import CircuitDraft.LinearExpr.Evaluate

/-!
Evaluation step by step: each term asks for its variable, and what follows takes place only if the
variable has a value.
-/

namespace CircuitDraft

namespace Evaluation

variable {F G H : Type}

def map (f : F → G) (evaluation : Evaluation F) : Evaluation G :=
  ⟨evaluation.value.map f, evaluation.asked⟩

/-- One evaluation after another. The later one takes place only if the first one has a value. -/
def andThen (first : Evaluation F) (later : F → Evaluation G) : Evaluation G :=
  match first.value with
  | none => ⟨none, first.asked⟩
  | some x => ⟨(later x).value, first.asked ++ (later x).asked⟩

theorem map_map (f : F → G) (g : G → H) (evaluation : Evaluation F) :
    (evaluation.map f).map g = evaluation.map (g ∘ f) := by
  rw [map, map, map, Option.map_map]

theorem andThen_assoc (first : Evaluation F) (f : F → Evaluation G) (g : G → Evaluation H) :
    (first.andThen f).andThen g = first.andThen fun x => (f x).andThen g := by
  obtain ⟨value, asked⟩ := first
  cases value with
  | none => rfl
  | some x =>
      simp only [andThen]
      cases (f x).value with
      | none => rfl
      | some y => simp only [List.append_assoc]

theorem map_andThen (first : Evaluation F) (later : F → Evaluation G) (f : G → H) :
    (first.andThen later).map f = first.andThen fun x => (later x).map f := by
  obtain ⟨value, asked⟩ := first
  cases value <;> rfl

theorem value_andThen (first : Evaluation F) (later : F → Evaluation G) :
    (first.andThen later).value = first.value.bind fun x => (later x).value := by
  obtain ⟨value, asked⟩ := first
  cases value <;> rfl

end Evaluation

namespace LinearExpr

variable {F : Type} [One F] {assignment assignment' : Variable → Option F} {var : Variable}

/-- What evaluation makes of a single variable. -/
def ask (assignment : Variable → Option F) (var : Variable) : Evaluation F :=
  if var = .one then ⟨some 1, []⟩ else ⟨assignment var, [var]⟩

theorem ask_congr (h : var ≠ .one → assignment var = assignment' var) :
    ask assignment var = ask assignment' var := by
  by_cases hone : var = .one
  · rw [ask, if_pos hone, ask, if_pos hone]
  · rw [ask, h hone, ask]

theorem isSome_ask_iff : (ask assignment var).value.isSome = true ↔
    (var ≠ .one → (assignment var).isSome = true) := by
  by_cases hone : var = .one
  · rw [ask, if_pos hone]
    exact iff_of_true rfl fun hne => absurd hone hne
  · rw [ask, if_neg hone]
    exact (imp_iff_right hone).symm

theorem evaluateFrom_cons [Add F] [Mul F] (assignment : Variable → Option F) (sum : F) (t : Term F)
    (rest : List (Term F)) : evaluateFrom assignment sum (t :: rest) =
      (ask assignment t.var).andThen fun x => evaluateFrom assignment (sum + t.coef * x) rest := by
  by_cases hone : t.var = .one
  · rw [evaluateFrom, if_pos hone, ask, if_pos hone]
    rfl
  · rw [evaluateFrom, if_neg hone, ask, if_neg hone]
    cases assignment t.var <;> rfl

theorem evaluateFrom_append [Add F] [Mul F] (assignment : Variable → Option F) (sum : F)
    (terms later : List (Term F)) : evaluateFrom assignment sum (terms ++ later) =
      (evaluateFrom assignment sum terms).andThen fun x => evaluateFrom assignment x later := by
  induction terms generalizing sum with
  | nil => rfl
  | cons t rest ih =>
      rw [List.cons_append, evaluateFrom_cons, evaluateFrom_cons, Evaluation.andThen_assoc]
      simp only [ih]

end LinearExpr

end CircuitDraft
