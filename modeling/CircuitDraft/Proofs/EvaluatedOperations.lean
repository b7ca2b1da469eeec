import Mathlib.Data.Option.NAry
import Mathlib.Tactic.Ring
import CircuitDraft.Proofs.EvaluationSteps

/-!
Evaluation goes through sums, differences and multiples: what they come to and what is asked for on
the way follows from the parts.
-/

namespace CircuitDraft

namespace Evaluation

variable {F G H : Type}

/-- When the later evaluation asks for the same whatever the first value is, its value is put
together with the first one. -/
theorem value_andThen_map (first : Evaluation F) (second : Evaluation G) (f : F → G → H) :
    (first.andThen fun x => second.map (f x)).value = Option.map₂ f first.value second.value :=
  value_andThen first _

theorem asked_andThen_map (first : Evaluation F) (second : Evaluation G) (f : F → G → H) :
    (first.andThen fun x => second.map (f x)).asked =
      first.asked ++ if first.value.isSome then second.asked else [] := by
  obtain ⟨value, asked⟩ := first
  cases value with
  | none => exact (List.append_nil asked).symm
  | some x => rfl

end Evaluation

namespace LinearExpr

variable {R : Type} [CommRing R]

theorem evaluateFrom_add (assignment : Variable → Option R) (x sum : R) (terms : List (Term R)) :
    evaluateFrom assignment (x + sum) terms = (evaluateFrom assignment sum terms).map (x + ·) := by
  induction terms generalizing sum with
  | nil => rfl
  | cons t rest ih =>
      rw [evaluateFrom_cons, evaluateFrom_cons, Evaluation.map_andThen]
      simp only [add_assoc, ih]

theorem evaluateFrom_scale (assignment : Variable → Option R) (sum k : R) (terms : List (Term R)) :
    evaluateFrom assignment (sum * k) (terms.map fun t => ⟨t.coef * k, t.var⟩) =
      (evaluateFrom assignment sum terms).map (· * k) := by
  induction terms generalizing sum with
  | nil => rfl
  | cons t rest ih =>
      have hterm : ∀ x, sum * k + t.coef * k * x = (sum + t.coef * x) * k := fun x => by ring
      rw [List.map_cons, evaluateFrom_cons, evaluateFrom_cons, Evaluation.map_andThen]
      simp only [hterm, ih]

theorem evaluate_add (a b : LinearExpr R) (assignment : Variable → Option R) :
    (a + b).evaluate assignment =
      (a.evaluate assignment).andThen fun x => (b.evaluate assignment).map (x + ·) := by
  rw [evaluate, terms_add, evaluateFrom_append]
  simp only [evaluate, ← evaluateFrom_add, add_zero]

theorem evaluate_scale (a : LinearExpr R) (k : R) (assignment : Variable → Option R) :
    (a.scale k).evaluate assignment = (a.evaluate assignment).map (· * k) := by
  rw [evaluate, evaluate, ← evaluateFrom_scale, zero_mul, terms_scale]

theorem evaluate_neg (a : LinearExpr R) (assignment : Variable → Option R) :
    (-a).evaluate assignment = (a.evaluate assignment).map (- ·) := by
  rw [neg_eq_scale, evaluate_scale]
  simp only [mul_neg_one]

theorem evaluate_sub (a b : LinearExpr R) (assignment : Variable → Option R) :
    (a - b).evaluate assignment =
      (a.evaluate assignment).andThen fun x => (b.evaluate assignment).map (x - ·) := by
  have hsub : ∀ x y : R, x + -y = x - y := fun x y => by ring
  rw [sub_eq_add_neg, evaluate_add, evaluate_neg]
  simp only [Evaluation.map_map, Function.comp_def, hsub]

/-- A sum and a difference have a value when both parts have, a negation and a multiple when the
expression has, and it is the sum, the difference, the negation and the multiple of the values. The
parts are asked for one after the other, the second only if the first one has a value. -/
structure EvaluatesByParts (a b : LinearExpr R) (k : R) (assignment : Variable → Option R) :
    Prop where
  value_add : ((a + b).evaluate assignment).value =
    Option.map₂ (· + ·) (a.evaluate assignment).value (b.evaluate assignment).value
  value_sub : ((a - b).evaluate assignment).value =
    Option.map₂ (· - ·) (a.evaluate assignment).value (b.evaluate assignment).value
  value_neg : ((-a).evaluate assignment).value = (a.evaluate assignment).value.map (- ·)
  value_scale : ((a.scale k).evaluate assignment).value =
    (a.evaluate assignment).value.map (· * k)
  evaluate_mul : (a * k).evaluate assignment = (a.scale k).evaluate assignment
  asked_add : ((a + b).evaluate assignment).asked = (a.evaluate assignment).asked ++
    if (a.evaluate assignment).value.isSome then (b.evaluate assignment).asked else []
  asked_sub : ((a - b).evaluate assignment).asked = (a.evaluate assignment).asked ++
    if (a.evaluate assignment).value.isSome then (b.evaluate assignment).asked else []
  asked_neg : ((-a).evaluate assignment).asked = (a.evaluate assignment).asked
  asked_scale : ((a.scale k).evaluate assignment).asked = (a.evaluate assignment).asked

theorem evaluatesByParts (a b : LinearExpr R) (k : R) (assignment : Variable → Option R) :
    EvaluatesByParts a b k assignment where
  value_add := by rw [evaluate_add, Evaluation.value_andThen_map]
  value_sub := by rw [evaluate_sub, Evaluation.value_andThen_map]
  value_neg := by rw [evaluate_neg, Evaluation.map]
  value_scale := by rw [evaluate_scale, Evaluation.map]
  evaluate_mul := rfl
  asked_add := by rw [evaluate_add, Evaluation.asked_andThen_map]
  asked_sub := by rw [evaluate_sub, Evaluation.asked_andThen_map]
  asked_neg := by rw [evaluate_neg, Evaluation.map]
  asked_scale := by rw [evaluate_scale, Evaluation.map]

end LinearExpr

end CircuitDraft
