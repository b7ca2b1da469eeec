import CircuitDraft.Proofs.Evaluation
import CircuitDraft.Proofs.Simplified

/-!
The value of a simplified expression under a partial assignment. Simplification keeps every value,
and gives one to an expression without a value only if all its variables without one cancel.
-/

namespace CircuitDraft.LinearExpr

/-- Whatever an assignment assigns, the extended one assigns alike. -/
def Extends {F : Type} (extended assignment : Variable → Option F) : Prop :=
  ∀ var x, assignment var = some x → extended var = some x

variable {R : Type} [CommRing R] {a b e : LinearExpr R} {assignment extended : Variable → Option R}

/-- A partial assignment, with zero for the variables that it leaves out. -/
def filled (assignment : Variable → Option R) : Variable → R :=
  fun var => (assignment var).getD 0

theorem some_filled {var : Variable} (hvar : (assignment var).isSome = true) :
    some (filled assignment var) = assignment var := by
  obtain ⟨x, hx⟩ := Option.isSome_iff_exists.mp hvar
  rw [filled, hx, Option.getD_some]

theorem extends_filled (assignment : Variable → Option R) :
    Extends (fun var => some (filled assignment var)) assignment := by
  intro var x hx
  exact (some_filled (Option.isSome_of_eq_some hx)).trans hx

/-- Where all variables have a value, evaluation does not tell a partial assignment from a total
one. -/
theorem value_evaluate_of_isSome (h : (e.evaluate assignment).value.isSome = true) :
    (e.evaluate assignment).value =
      some (Finsupp.linearCombination R (carried (filled assignment)) e.form) := by
  have hassigned := isSome_evaluate_iff.mp h
  rw [← value_evaluate]
  refine congrArg Evaluation.value (evaluate_congr fun var hvar hne => ?_)
  exact (some_filled (hassigned var hvar hne)).symm

theorem value_eq_of_form_eq (hform : a.form = b.form)
    (ha : (a.evaluate assignment).value.isSome = true)
    (hb : (b.evaluate assignment).value.isSome = true) :
    (a.evaluate assignment).value = (b.evaluate assignment).value := by
  rw [value_evaluate_of_isSome ha, value_evaluate_of_isSome hb, hform]

theorem evaluate_extended (hextends : Extends extended assignment)
    (h : (e.evaluate assignment).value.isSome = true) :
    e.evaluate extended = e.evaluate assignment := by
  apply evaluate_congr
  intro var hvar hne
  obtain ⟨x, hx⟩ := Option.isSome_iff_exists.mp (isSome_evaluate_iff.mp h var hvar hne)
  rw [hx, hextends var x hx]

variable [DecidableEq R]

/-- A simplified expression has a value when those variables without one have cancelled. -/
theorem isSome_evaluate_simplify_iff : (e.simplify.evaluate assignment).value.isSome = true ↔
    ∀ var ∈ e.vars, var ≠ .one → assignment var = none → e.form var = 0 := by
  rw [isSome_evaluate_iff]
  constructor
  · intro h var hvar hne hnone
    by_contra hform
    have hsome := h var (e.mem_vars_simplify_iff.mpr hform) hne
    rw [hnone] at hsome
    cases hsome
  · intro h var hvar hne
    rw [Option.isSome_iff_ne_none]
    intro hnone
    exact e.mem_vars_simplify_iff.mp hvar (h var (e.vars_simplify_subset hvar) hne hnone)

theorem value_evaluate_simplify (h : (e.evaluate assignment).value.isSome = true) :
    (e.simplify.evaluate assignment).value = (e.evaluate assignment).value := by
  refine value_eq_of_form_eq e.form_simplify ?_ h
  apply isSome_evaluate_iff.mpr
  intro var hvar
  exact isSome_evaluate_iff.mp h var (e.vars_simplify_subset hvar)

/-- The value of a simplified expression is the one that the expression itself has once the missing
variables are assigned, no matter what. -/
theorem value_evaluate_extended (hextends : Extends extended assignment)
    (hsimplified : (e.simplify.evaluate assignment).value.isSome = true)
    (hextended : (e.evaluate extended).value.isSome = true) :
    (e.evaluate extended).value = (e.simplify.evaluate assignment).value := by
  rw [← value_evaluate_simplify hextended, evaluate_extended hextends hsimplified]

/-- Simplification keeps the value of an expression. It adds one exactly if all variables without a
value cancel and, whichever values they are given, the expression comes to the same. -/
structure KeepsValue (e : LinearExpr R) (assignment : Variable → Option R) : Prop where
  kept : ∀ c, (e.evaluate assignment).value = some c →
    (e.simplify.evaluate assignment).value = some c
  simplified_iff : ∀ c, (e.simplify.evaluate assignment).value = some c ↔
    (∀ var ∈ e.vars, var ≠ .one → assignment var = none → e.coefSum var = 0) ∧
      ∀ extended, Extends extended assignment →
        (∀ var ∈ e.vars, var ≠ .one → (extended var).isSome = true) →
          (e.evaluate extended).value = some c

theorem keepsValue (e : LinearExpr R) (assignment : Variable → Option R) :
    e.KeepsValue assignment where
  kept c hvalue := by
    rw [value_evaluate_simplify (Option.isSome_of_eq_some hvalue), hvalue]
  simplified_iff c := by
    have hcancel : (e.simplify.evaluate assignment).value.isSome = true ↔
        ∀ var ∈ e.vars, var ≠ .one → assignment var = none → e.coefSum var = 0 := by
      simp only [coefSum_eq_form]
      exact isSome_evaluate_simplify_iff
    constructor
    · intro hvalue
      have hsome := Option.isSome_of_eq_some hvalue
      refine ⟨hcancel.mp hsome, fun extended hextends hassigned => ?_⟩
      rw [value_evaluate_extended hextends hsome (isSome_evaluate_iff.mpr hassigned), hvalue]
    · rintro ⟨hzero, hextended⟩
      have hfilled := hextended _ (extends_filled assignment) fun _ _ _ => rfl
      rw [← value_evaluate_extended (extends_filled assignment) (hcancel.mpr hzero)
        (Option.isSome_of_eq_some hfilled), hfilled]

-- The first term ends the evaluation, although nothing of its variable is left in the end.
example : let e : LinearExpr PrimeField.koalaBear.Element := ⟨[⟨1, ⟨3⟩⟩, ⟨2, .one⟩, ⟨-1, ⟨3⟩⟩]⟩
    e.evaluate (fun _ => none) = ⟨none, [⟨3⟩]⟩ ∧
      e.simplify.evaluate (fun _ => none) = ⟨some 2, []⟩ := by
  decide +kernel

end CircuitDraft.LinearExpr
