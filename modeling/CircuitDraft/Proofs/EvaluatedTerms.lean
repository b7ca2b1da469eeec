import CircuitDraft.Proofs.PartialValues

/-!
Evaluation told from the list of terms: which variables it asks for, when it has a value, and that
the value is the sum of the terms.
-/

namespace CircuitDraft

/-- What is asked for if variables are asked for in turn, up to the first one without a value. -/
def askedInTurn {F : Type} (assignment : Variable → Option F) (wanted : List Variable) :
    List Variable :=
  wanted.takeWhile (fun var => (assignment var).isSome) ++
    (wanted.find? fun var => (assignment var).isNone).toList

theorem askedInTurn_cons_of_none {F : Type} {assignment : Variable → Option F} {var : Variable}
    (hvar : assignment var = none) (rest : List Variable) :
    askedInTurn assignment (var :: rest) = [var] := by
  simp [askedInTurn, hvar]

theorem askedInTurn_cons_of_some {F : Type} {assignment : Variable → Option F} {var : Variable}
    {x : F} (hvar : assignment var = some x) (rest : List Variable) :
    askedInTurn assignment (var :: rest) = var :: askedInTurn assignment rest := by
  simp [askedInTurn, hvar]

theorem mem_of_mem_askedInTurn {F : Type} {assignment : Variable → Option F}
    {wanted : List Variable} {var : Variable} (hvar : var ∈ askedInTurn assignment wanted) :
    var ∈ wanted := by
  rcases List.mem_append.mp hvar with hbefore | hlast
  · exact (List.takeWhile_prefix _).subset hbefore
  · exact List.mem_of_find?_eq_some (Option.mem_toList.mp hlast)

namespace LinearExpr

section Asked

variable {F : Type} [Add F] [Mul F] [One F]

theorem asked_evaluateFrom (assignment : Variable → Option F) (sum : F) (terms : List (Term F)) :
    (evaluateFrom assignment sum terms).asked =
      askedInTurn assignment ((terms.map Term.var).filter fun var => var ≠ .one) := by
  induction terms generalizing sum with
  | nil => rfl
  | cons t rest ih =>
      rw [evaluateFrom_cons, List.map_cons, ask]
      by_cases hone : t.var = .one
      · rw [if_pos hone, List.filter_cons_of_neg (by simpa using hone)]
        exact ih (sum + t.coef * 1)
      · rw [if_neg hone, List.filter_cons_of_pos (by simpa using hone)]
        cases hvar : assignment t.var with
        | none => rw [askedInTurn_cons_of_none hvar, Evaluation.andThen]
        | some x =>
            rw [askedInTurn_cons_of_some hvar, ← ih (sum + t.coef * x)]
            rfl

end Asked

section Value

variable {R : Type} [CommRing R] {a b e : LinearExpr R} {assignment : Variable → Option R}

/-- The sum of the terms, given a value for each variable. -/
def sumOver (e : LinearExpr R) (values : Variable → R) : R :=
  (e.terms.map fun t => t.coef * values t.var).sum

/-- The value of a form is the sum over any terms that it can be put together from. -/
theorem linearCombination_formOf (values : Variable → R) (terms : List (Term R)) :
    Finsupp.linearCombination R values (formOf terms) =
      (terms.map fun t => t.coef * values t.var).sum := by
  induction terms with
  | nil => exact map_zero _
  | cons t rest ih =>
      rw [formOf_cons, map_add, Finsupp.linearCombination_single, smul_eq_mul, ih, List.map_cons,
        List.sum_cons]

/-- Where all variables have a value, the value of an expression is the sum of its terms. -/
theorem value_evaluate_eq_sumOver {values : Variable → R} (hone : values .one = 1)
    (hassigned : ∀ var ∈ e.vars, var ≠ .one → assignment var = some (values var)) :
    (e.evaluate assignment).value = some (e.sumOver values) := by
  rw [evaluate_congr hassigned, value_evaluate, carried_eq_self hone, form,
    linearCombination_formOf, sumOver]

theorem value_evaluate_perm (hperm : a.terms.Perm b.terms) :
    (a.evaluate assignment).value = (b.evaluate assignment).value := by
  have hsome : (a.evaluate assignment).value.isSome = true ↔
      (b.evaluate assignment).value.isSome = true := by
    rw [isSome_evaluate_iff, isSome_evaluate_iff]
    exact forall_congr' fun var => imp_congr_left (hperm.map Term.var).mem_iff
  by_cases ha : (a.evaluate assignment).value.isSome = true
  · exact value_eq_of_form_eq (formOf_perm hperm) ha (hsome.mp ha)
  · rw [Option.not_isSome_iff_eq_none.mp ha, Option.not_isSome_iff_eq_none.mp (mt hsome.mpr ha)]

theorem value_evaluateFrom_none (sum : R) (terms : List (Term R)) :
    (evaluateFrom (fun _ => none) sum terms).value =
      terms.foldlM (fun sum t => if t.var = .one then some (sum + t.coef) else none) sum := by
  induction terms generalizing sum with
  | nil => rfl
  | cons t rest ih =>
      rw [evaluateFrom_cons, Evaluation.value_andThen, List.foldlM_cons, ask]
      by_cases hone : t.var = .one
      · rw [if_pos hone, if_pos hone, Option.bind_some, mul_one]
        exact ih (sum + t.coef)
      · rw [if_neg hone, if_neg hone]
        rfl

/-- In a prime field the terms are summed modulo the modulus. -/
theorem sumOver_eq_ofNat {K : PrimeField} (e : LinearExpr K.Element)
    (values : Variable → K.Element) :
    e.sumOver values = .ofNat (e.terms.map fun t => t.coef.val * (values t.var).val).sum := by
  rw [sumOver, PrimeField.Element.sum_eq_ofNat, List.map_map]
  refine (PrimeField.Element.ext ?_).symm
  rw [PrimeField.Element.val_ofNat, PrimeField.Element.val_ofNat, List.sum_nat_mod, List.map_map]
  rfl

/-- Evaluation asks for the variables of an expression in term order, up to the first one without a
value, and never for the constant-one wire. It has no value if one of them has none, no matter which
coefficients these have. Otherwise its value is the sum of the terms, whatever their order. If no
variable at all has a value, it is the constant that the expression consists of. -/
structure EvaluatesTermwise (e : LinearExpr R) (assignment : Variable → Option R) : Prop where
  asked : (e.evaluate assignment).asked =
    askedInTurn assignment (e.vars.filter fun var => var ≠ .one)
  one_notMem_asked : .one ∉ (e.evaluate assignment).asked
  value_eq_none_iff : (e.evaluate assignment).value = none ↔
    ∃ var ∈ e.vars, var ≠ .one ∧ assignment var = none
  value_eq_sumOver : ∀ values : Variable → R, values .one = 1 →
    (∀ var ∈ e.vars, var ≠ .one → assignment var = some (values var)) →
      (e.evaluate assignment).value = some (e.sumOver values)
  value_perm : ∀ a : LinearExpr R, a.terms.Perm e.terms →
    (a.evaluate assignment).value = (e.evaluate assignment).value
  value_unassigned : (e.evaluate fun _ => none).value = e.constant?

theorem evaluatesTermwise (e : LinearExpr R) (assignment : Variable → Option R) :
    e.EvaluatesTermwise assignment where
  asked := asked_evaluateFrom assignment 0 e.terms
  one_notMem_asked := by
    rw [evaluate, asked_evaluateFrom]
    intro hone
    simpa using (List.mem_filter.mp (mem_of_mem_askedInTurn hone)).2
  value_eq_none_iff := by
    rw [← Option.not_isSome_iff_eq_none, isSome_evaluate_iff]
    simp only [not_forall, Option.not_isSome_iff_eq_none, exists_prop]
  value_eq_sumOver _ := value_evaluate_eq_sumOver
  value_perm _ := value_evaluate_perm
  value_unassigned := value_evaluateFrom_none 0 e.terms

end Value

-- The first variable is asked for twice, the last one no more.
example : let e : LinearExpr PrimeField.babyBear.Element :=
      ⟨[⟨2, ⟨1⟩⟩, ⟨5, .one⟩, ⟨3, ⟨1⟩⟩, ⟨0, ⟨4⟩⟩, ⟨1, ⟨2⟩⟩]⟩
    e.evaluate (fun var => if var = ⟨4⟩ then none else some 7) = ⟨none, [⟨1⟩, ⟨1⟩, ⟨4⟩]⟩ := by
  decide +kernel

end LinearExpr

end CircuitDraft
