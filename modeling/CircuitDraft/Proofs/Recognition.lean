import CircuitDraft.Proofs.LinearForm
import CircuitDraft.Proofs.PrimeModulus

/-!
Telling from the terms that an expression is constant or a variable. What the terms tell is so, and
those of a simplified expression tell whenever it is.
-/

namespace CircuitDraft.LinearExpr

variable {R : Type} [CommRing R] {e : LinearExpr R} {c : R} {var : Variable}

theorem foldlM_eq_some_iff (sum : R) (terms : List (Term R)) :
    (terms.foldlM (fun sum t => if t.var = .one then some (sum + t.coef) else none) sum = some c) ↔
      (∀ t ∈ terms, t.var = .one) ∧ sum + formOf terms .one = c := by
  induction terms generalizing sum with
  | nil => simp
  | cons t rest ih =>
      rw [List.foldlM_cons, List.forall_mem_cons, formOf_cons, Finsupp.add_apply, ← add_assoc]
      by_cases hone : t.var = .one
      · rw [if_pos hone, hone, Finsupp.single_eq_same, and_iff_right rfl]
        exact ih (sum + t.coef)
      · rw [if_neg hone]
        exact iff_of_false nofun fun h => hone h.1.1

theorem constant?_eq_some_iff :
    e.constant? = some c ↔ (∀ t ∈ e.terms, t.var = .one) ∧ e.form .one = c := by
  rw [constant?, foldlM_eq_some_iff, zero_add, form]

theorem form_ofVariable (var : Variable) :
    (ofVariable var : LinearExpr R).form = Finsupp.single var 1 :=
  add_zero _

theorem form_eq_of_constant? (h : e.constant? = some c) : e.form = Finsupp.single .one c := by
  obtain ⟨hone, rfl⟩ := constant?_eq_some_iff.mp h
  ext var
  by_cases hvar : var = .one
  · rw [hvar, Finsupp.single_eq_same]
  · rw [Finsupp.single_eq_of_ne hvar]
    apply formOf_apply_of_notMem
    intro hmem
    obtain ⟨t, ht, rfl⟩ := List.mem_map.mp hmem
    exact hvar (hone t ht)

theorem form_eq_of_singleVariable? [DecidableEq R] (h : e.singleVariable? = some var) :
    e.form = Finsupp.single var 1 := by
  obtain ⟨rfl, -⟩ := singleVariable?_eq_some_iff.mp h
  exact form_ofVariable var

namespace Reduced

theorem constant?_iff (h : e.Reduced) : e.constant? = some c ↔ e.form = Finsupp.single .one c := by
  refine ⟨form_eq_of_constant?, fun hform => constant?_eq_some_iff.mpr ⟨?_, ?_⟩⟩
  · intro t ht
    obtain ⟨hcoef, hne⟩ := h.mem_terms_iff.mp ht
    by_contra hone
    rw [hform, Finsupp.single_eq_of_ne hone] at hcoef
    exact hne hcoef.symm
  · rw [hform, Finsupp.single_eq_same]

theorem ofVariable [Nontrivial R] (var : Variable) : (ofVariable var : LinearExpr R).Reduced where
  nodup_vars := List.nodup_singleton var
  coef_ne_zero t ht := by
    obtain rfl := List.mem_singleton.mp ht
    exact one_ne_zero

theorem singleVariable?_iff [Nontrivial R] [DecidableEq R] (h : e.Reduced) :
    e.singleVariable? = some var ↔ var ≠ .one ∧ e.form = Finsupp.single var 1 := by
  constructor
  · intro hsingle
    exact ⟨(singleVariable?_eq_some_iff.mp hsingle).2, form_eq_of_singleVariable? hsingle⟩
  · rintro ⟨hne, hform⟩
    have hperm : e.terms.Perm [⟨1, var⟩] :=
      (h.perm_iff (ofVariable var)).mpr (hform.trans (form_ofVariable var).symm)
    refine singleVariable?_eq_some_iff.mpr ⟨?_, hne⟩
    exact congrArg LinearExpr.mk (List.perm_singleton.mp hperm)

end Reduced

/-- The values under all total assignments tell the form. -/
theorem form_eq_iff (f : Variable →₀ R) : e.form = f ↔ ∀ assignment : Variable → R,
    (e.evaluate fun var => some (assignment var)).value =
      some (Finsupp.linearCombination R (carried assignment) f) := by
  constructor
  · rintro rfl
    exact e.value_evaluate
  · intro h
    refine form_eq_of_linearCombination_eq fun values hone => ?_
    have hvalue := h values
    rw [value_evaluate, carried_eq_self hone] at hvalue
    exact Option.some.inj hvalue

theorem form_eq_single_one_iff : e.form = Finsupp.single .one c ↔ ∀ assignment : Variable → R,
    (e.evaluate fun var => some (assignment var)).value = some c := by
  rw [form_eq_iff]
  refine forall_congr' fun assignment => ?_
  rw [Finsupp.linearCombination_single, carried, if_pos rfl, smul_eq_mul, mul_one]

theorem form_eq_single_iff (hne : var ≠ .one) :
    e.form = Finsupp.single var 1 ↔ ∀ assignment : Variable → R,
      (e.evaluate fun var => some (assignment var)).value = some (assignment var) := by
  rw [form_eq_iff]
  refine forall_congr' fun assignment => ?_
  rw [Finsupp.linearCombination_single, carried, if_neg hne, one_smul]

/-- The two tests are right about any expression, and miss nothing about a simplified one. -/
structure RecognizedBySimplifying [DecidableEq R] (e : LinearExpr R) : Prop where
  constant_iff : ∀ c, e.simplify.constant? = some c ↔ ∀ assignment : Variable → R,
    (e.evaluate fun var => some (assignment var)).value = some c
  singleVariable_iff : ∀ var, e.simplify.singleVariable? = some var ↔
    var ≠ .one ∧ ∀ assignment : Variable → R,
      (e.evaluate fun var => some (assignment var)).value = some (assignment var)
  of_constant : ∀ c, e.constant? = some c → ∀ assignment : Variable → R,
    (e.evaluate fun var => some (assignment var)).value = some c
  of_singleVariable : ∀ var, e.singleVariable? = some var →
    var ≠ .one ∧ ∀ assignment : Variable → R,
      (e.evaluate fun var => some (assignment var)).value = some (assignment var)

theorem recognizedBySimplifying [Nontrivial R] [DecidableEq R] (e : LinearExpr R) :
    e.RecognizedBySimplifying where
  constant_iff c := by
    rw [e.reduced_simplify.constant?_iff, form_simplify, form_eq_single_one_iff]
  singleVariable_iff var := by
    rw [e.reduced_simplify.singleVariable?_iff, form_simplify]
    exact and_congr_right form_eq_single_iff
  of_constant c hconstant := form_eq_single_one_iff.mp (form_eq_of_constant? hconstant)
  of_singleVariable var hsingle := by
    have hne := (singleVariable?_eq_some_iff.mp hsingle).2
    exact ⟨hne, (form_eq_single_iff hne).mp (form_eq_of_singleVariable? hsingle)⟩

/-- The first variable, less a constant that is added again. -/
def disguised : LinearExpr PrimeField.goldilocks.Element :=
  ⟨[⟨2, ⟨1⟩⟩, ⟨3, .one⟩, ⟨-1, ⟨1⟩⟩, ⟨-3, .one⟩]⟩

/-- Neither test recognises this one before it is simplified. -/
theorem recognizedBySimplifying_disguised :
    Nontrivial PrimeField.goldilocks.Element ∧ disguised.RecognizedBySimplifying ∧
      disguised.constant? = none ∧ disguised.singleVariable? = none ∧
      disguised.simplify.singleVariable? = some ⟨1⟩ :=
  ⟨inferInstance, recognizedBySimplifying disguised, by decide +kernel, by decide +kernel,
    by decide +kernel⟩

end CircuitDraft.LinearExpr
