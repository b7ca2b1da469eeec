import Mathlib.LinearAlgebra.Finsupp.LinearCombination
import Mathlib.GroupTheory.GroupAction.Ring
import Mathlib.Tactic.TFAE
import CircuitDraft.LinearExpr.Simplify
import CircuitDraft.Proofs.ArenaIndex
import CircuitDraft.Proofs.EvaluationSteps

/-!
The linear form that an expression stands for. Evaluation depends on the form alone, simplification
keeps it, and a simplified expression can be read off it up to the order of the terms.
-/

namespace CircuitDraft

variable {R : Type} [CommRing R]

/-- The coefficient of each variable, terms of the same variable taken together. -/
noncomputable def formOf (terms : List (Term R)) : Variable →₀ R :=
  (terms.map fun t => Finsupp.single t.var t.coef).sum

@[simp]
theorem formOf_nil : formOf ([] : List (Term R)) = 0 :=
  rfl

@[simp]
theorem formOf_cons (t : Term R) (terms : List (Term R)) :
    formOf (t :: terms) = Finsupp.single t.var t.coef + formOf terms :=
  List.sum_cons

@[simp]
theorem formOf_append (terms later : List (Term R)) :
    formOf (terms ++ later) = formOf terms + formOf later := by
  rw [formOf, List.map_append, List.sum_append, formOf, formOf]

theorem formOf_scale (terms : List (Term R)) (k : R) :
    formOf (terms.map fun t => ⟨t.coef * k, t.var⟩) = k • formOf terms := by
  induction terms with
  | nil => exact (smul_zero k).symm
  | cons t rest ih =>
      rw [List.map_cons, formOf_cons, ih, formOf_cons, smul_add, Finsupp.smul_single, smul_eq_mul,
        mul_comm]

theorem formOf_perm {terms terms' : List (Term R)} (h : terms.Perm terms') :
    formOf terms = formOf terms' :=
  (h.map _).sum_eq

theorem formOf_filter [DecidableEq R] (terms : List (Term R)) :
    formOf (terms.filter fun t => t.coef ≠ 0) = formOf terms := by
  induction terms with
  | nil => rfl
  | cons t rest ih =>
      by_cases hzero : t.coef = 0
      · rw [List.filter_cons_of_neg (by simpa using hzero), ih, formOf_cons, hzero,
          Finsupp.single_zero, zero_add]
      · rw [List.filter_cons_of_pos (by simpa using hzero), formOf_cons, ih, formOf_cons]

theorem formOf_apply_of_notMem {terms : List (Term R)} {var : Variable}
    (hvar : var ∉ terms.map Term.var) : formOf terms var = 0 := by
  induction terms with
  | nil => rfl
  | cons t rest ih =>
      rw [List.map_cons, List.mem_cons, not_or] at hvar
      rw [formOf_cons, Finsupp.add_apply, Finsupp.single_eq_of_ne hvar.1, ih hvar.2, zero_add]

theorem formOf_apply_of_mem {terms : List (Term R)} (hnodup : (terms.map Term.var).Nodup)
    {t : Term R} (ht : t ∈ terms) : formOf terms t.var = t.coef := by
  induction terms with
  | nil => cases ht
  | cons u rest ih =>
      rw [List.map_cons, List.nodup_cons] at hnodup
      rw [formOf_cons, Finsupp.add_apply]
      rcases List.mem_cons.mp ht with rfl | hrest
      · rw [Finsupp.single_eq_same, formOf_apply_of_notMem hnodup.1, add_zero]
      · have hne : t.var ≠ u.var := by
          intro heq
          exact hnodup.1 (heq ▸ List.mem_map_of_mem hrest)
        rw [Finsupp.single_eq_of_ne hne, ih hnodup.2 hrest, zero_add]

/-- Raising the coefficient of one of the terms raises that of its variable in the form. -/
theorem formOf_raise {terms : List (Term R)} (hnodup : (terms.map Term.var).Nodup) {var : Variable}
    (hvar : var ∈ terms.map Term.var) (c : R) :
    formOf (terms.map fun u => if u.var = var then { u with coef := u.coef + c } else u) =
      formOf terms + Finsupp.single var c := by
  induction terms with
  | nil => cases hvar
  | cons u rest ih =>
      rw [List.map_cons, List.nodup_cons] at hnodup
      rw [List.map_cons, formOf_cons, formOf_cons]
      by_cases hhead : u.var = var
      · have hrest : (rest.map fun u =>
            if u.var = var then { u with coef := u.coef + c } else u) = rest := by
          refine (List.map_congr_left fun t ht => if_neg fun heq => hnodup.1 ?_).trans rest.map_id
          rw [hhead, ← heq]
          exact List.mem_map_of_mem ht
        rw [if_pos hhead, hrest, Finsupp.single_add, hhead, add_right_comm]
      · have hlater : var ∈ rest.map Term.var :=
          (List.mem_cons.mp hvar).resolve_left (Ne.symm hhead)
        rw [if_neg hhead, ih hnodup.2 hlater, add_assoc]

namespace Gathered

theorem insert_indexed {gathered : Gathered R} (h : gathered.Indexed Term.var) (t : Term R) :
    (gathered.insert t).Indexed Term.var := by
  rw [Gathered.insert]
  split
  · exact h.modify t.var _ fun _ hvar => hvar
  · next hfree => exact h.push t (Bool.eq_false_iff.mpr hfree)

theorem formOf_insert {gathered : Gathered R} (h : gathered.Indexed Term.var) (t : Term R) :
    formOf (gathered.insert t).entries.toList =
      formOf gathered.entries.toList + Finsupp.single t.var t.coef := by
  rw [Gathered.insert]
  split
  · next hknown =>
    rw [h.toList_modify]
    exact formOf_raise h.nodup_keys (h.contains_iff.mp hknown) t.coef
  · simp [Arena.push]

theorem foldl_insert {gathered : Gathered R} (h : gathered.Indexed Term.var)
    (terms : List (Term R)) :
    (terms.foldl Gathered.insert gathered).Indexed Term.var ∧
      formOf (terms.foldl Gathered.insert gathered).entries.toList =
        formOf gathered.entries.toList + formOf terms := by
  induction terms generalizing gathered with
  | nil => exact ⟨h, (add_zero _).symm⟩
  | cons t rest ih =>
      obtain ⟨hindexed, hform⟩ := ih (insert_indexed h t)
      refine ⟨hindexed, ?_⟩
      rw [List.foldl_cons, hform, formOf_insert h, formOf_cons, add_assoc]

end Gathered

namespace LinearExpr

noncomputable def form (e : LinearExpr R) : Variable →₀ R :=
  formOf e.terms

theorem form_add (a b : LinearExpr R) : (a + b).form = a.form + b.form :=
  formOf_append a.terms b.terms

theorem form_scale (e : LinearExpr R) (k : R) : (e.scale k).form = k • e.form :=
  formOf_scale e.terms k

theorem form_sub (a b : LinearExpr R) : (a - b).form = a.form - b.form := by
  rw [sub_eq_add_neg, form_add, neg_eq_scale, form_scale, neg_one_smul, add_comm, neg_add_eq_sub]

/-- No variable has two terms, and no term is zero. -/
structure Reduced (e : LinearExpr R) : Prop where
  nodup_vars : e.vars.Nodup
  coef_ne_zero : ∀ t ∈ e.terms, t.coef ≠ 0

theorem gather_indexed (e : LinearExpr R) : e.gather.Indexed Term.var :=
  (Gathered.foldl_insert (Arena.indexed_empty Term.var) e.terms).1

theorem formOf_gather (e : LinearExpr R) : formOf e.gather.entries.toList = e.form :=
  (Gathered.foldl_insert (Arena.indexed_empty Term.var) e.terms).2.trans (zero_add _)

section Simplify

variable [DecidableEq R]

theorem reduced_simplify (e : LinearExpr R) : e.simplify.Reduced where
  nodup_vars := e.gather_indexed.nodup_keys.sublist (List.filter_sublist.map _)
  coef_ne_zero _ ht := of_decide_eq_true (List.mem_filter.mp ht).2

@[simp]
theorem form_simplify (e : LinearExpr R) : e.simplify.form = e.form :=
  (formOf_filter _).trans e.formOf_gather

end Simplify

namespace Reduced

variable {a b : LinearExpr R}

theorem mem_terms_iff (h : a.Reduced) {t : Term R} :
    t ∈ a.terms ↔ a.form t.var = t.coef ∧ t.coef ≠ 0 := by
  constructor
  · intro ht
    exact ⟨formOf_apply_of_mem h.nodup_vars ht, h.coef_ne_zero t ht⟩
  · rintro ⟨hform, hne⟩
    have hvar : t.var ∈ a.vars := by
      by_contra hvar
      exact hne (hform.symm.trans (formOf_apply_of_notMem hvar))
    obtain ⟨u, hu, hsame⟩ := List.mem_map.mp hvar
    have hcoef : t.coef = u.coef := by
      rw [← hform, ← hsame]
      exact formOf_apply_of_mem h.nodup_vars hu
    obtain ⟨coef, var⟩ := t
    obtain rfl : var = u.var := hsame.symm
    obtain rfl : coef = u.coef := hcoef
    exact hu

theorem mem_vars_iff (h : a.Reduced) {var : Variable} : var ∈ a.vars ↔ a.form var ≠ 0 := by
  constructor
  · intro hvar
    obtain ⟨t, ht, rfl⟩ := List.mem_map.mp hvar
    obtain ⟨hform, hne⟩ := h.mem_terms_iff.mp ht
    rwa [hform]
  · intro hne
    by_contra hvar
    exact hne (formOf_apply_of_notMem hvar)

/-- The form determines the terms of a reduced expression. -/
theorem perm_iff (ha : a.Reduced) (hb : b.Reduced) :
    a.terms.Perm b.terms ↔ a.form = b.form := by
  constructor
  · exact formOf_perm
  · intro hform
    rw [List.perm_ext_iff_of_nodup (List.Nodup.of_map _ ha.nodup_vars)
      (List.Nodup.of_map _ hb.nodup_vars)]
    intro t
    rw [ha.mem_terms_iff, hb.mem_terms_iff, hform]

theorem isEmpty_iff (h : a.Reduced) : a.isEmpty = true ↔ a.form = 0 := by
  rw [isEmpty, List.isEmpty_iff]
  constructor
  · intro hnil
    rw [form, hnil, formOf_nil]
  · intro hform
    rw [List.eq_nil_iff_forall_not_mem]
    intro t ht
    obtain ⟨hcoef, hne⟩ := h.mem_terms_iff.mp ht
    rw [hform] at hcoef
    exact hne hcoef.symm

end Reduced

/-- The values that evaluation works with: the constant-one wire carries one, whatever an assignment
says. -/
def carried (assignment : Variable → R) : Variable → R :=
  fun var => if var = .one then 1 else assignment var

theorem value_ask (assignment : Variable → R) (var : Variable) :
    (ask (fun var => some (assignment var)) var).value = some (carried assignment var) := by
  rw [ask, carried]
  split <;> rfl

theorem value_evaluateFrom (assignment : Variable → R) (sum : R) (terms : List (Term R)) :
    (evaluateFrom (fun var => some (assignment var)) sum terms).value =
      some (sum + Finsupp.linearCombination R (carried assignment) (formOf terms)) := by
  induction terms generalizing sum with
  | nil => simp [evaluateFrom]
  | cons t rest ih =>
      rw [evaluateFrom_cons, Evaluation.value_andThen, value_ask, Option.bind_some, ih, formOf_cons,
        map_add, Finsupp.linearCombination_single, smul_eq_mul, add_assoc]

/-- The value of an expression under a total assignment is that of its form. -/
theorem value_evaluate (e : LinearExpr R) (assignment : Variable → R) :
    (e.evaluate fun var => some (assignment var)).value =
      some (Finsupp.linearCombination R (carried assignment) e.form) := by
  rw [evaluate, value_evaluateFrom, zero_add, form]

theorem linearCombination_single_add_single (f : Variable →₀ R) (v w : Variable) :
    Finsupp.linearCombination R (Pi.single v 1 + Pi.single w 1) f = f v + f w := by
  have hadd := LinearMap.congr_fun
    (map_add (Finsupp.bilinearCombination R R) (Pi.single v 1) (Pi.single w (1 : R))) f
  rw [LinearMap.add_apply, Finsupp.bilinearCombination_apply, Finsupp.bilinearCombination_apply,
    Finsupp.bilinearCombination_apply] at hadd
  rw [hadd, Finsupp.linearCombination_single_index, Finsupp.linearCombination_single_index,
    smul_eq_mul, smul_eq_mul, mul_one, mul_one]

/-- The values of a form where no variable or one of them is one, the constant-one wire apart, tell
its coefficients. -/
theorem form_eq_of_linearCombination_eq {f g : Variable →₀ R}
    (h : ∀ values : Variable → R, values .one = 1 →
      Finsupp.linearCombination R values f = Finsupp.linearCombination R values g) : f = g := by
  have hone : f .one = g .one := by
    have hvalue := h (Pi.single .one 1) (Pi.single_eq_same _ _)
    simpa only [Finsupp.linearCombination_single_index, smul_eq_mul, mul_one] using hvalue
  ext var
  by_cases hvar : var = .one
  · rw [hvar, hone]
  · have hvalue := h (Pi.single .one 1 + Pi.single var 1) (by
      rw [Pi.add_apply, Pi.single_eq_same, Pi.single_eq_of_ne (Ne.symm hvar), add_zero])
    rw [linearCombination_single_add_single, linearCombination_single_add_single, hone] at hvalue
    exact add_left_cancel hvalue

theorem carried_eq_self {assignment : Variable → R} (hone : assignment .one = 1) :
    carried assignment = assignment := by
  funext var
  rw [carried]
  split
  · next hvar => rw [hvar, hone]
  · rfl

/-- Simplification decides whether two expressions stand for the same form: whether they have the
same value under every assignment shows in the difference, of which nothing is left, and in the
simplified expressions, which have the same terms up to order. What an assignment says of the
constant-one wire makes no difference. -/
theorem sameValues_tfae [DecidableEq R] (a b : LinearExpr R) :
    [∀ assignment : Variable → R,
        (a.evaluate fun var => some (assignment var)).value =
          (b.evaluate fun var => some (assignment var)).value,
      ∀ assignment : Variable → R, assignment .one = 1 →
        (a.evaluate fun var => some (assignment var)).value =
          (b.evaluate fun var => some (assignment var)).value,
      (a - b).simplify.isEmpty = true,
      a.simplify.terms.Perm b.simplify.terms].TFAE := by
  have hempty : (a - b).simplify.isEmpty = true ↔ a.form = b.form := by
    rw [(reduced_simplify _).isEmpty_iff, form_simplify, form_sub, sub_eq_zero]
  have hperm : a.simplify.terms.Perm b.simplify.terms ↔ a.form = b.form := by
    rw [(reduced_simplify a).perm_iff (reduced_simplify b), form_simplify, form_simplify]
  tfae_have 1 → 2 := fun h assignment _ => h assignment
  tfae_have 2 → 3 := by
    intro h
    refine hempty.mpr (form_eq_of_linearCombination_eq fun values hone => ?_)
    have hvalue := h values hone
    rw [value_evaluate, value_evaluate, carried_eq_self hone] at hvalue
    exact Option.some.inj hvalue
  tfae_have 3 ↔ 4 := hempty.trans hperm.symm
  tfae_have 4 → 1 := by
    intro h assignment
    rw [value_evaluate, value_evaluate, hperm.mp h]
  tfae_finish

end LinearExpr

end CircuitDraft
