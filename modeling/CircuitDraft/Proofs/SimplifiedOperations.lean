import Mathlib.Algebra.Ring.Regular
import CircuitDraft.Proofs.Evaluation
import CircuitDraft.Proofs.PrimeModulus
import CircuitDraft.Proofs.Simplified

/-!
Simplification of sums and multiples. Parts may be simplified first, but for one case: in a sum, a
variable that cancels in the first part and occurs in the second one gives up its place.
-/

namespace CircuitDraft.LinearExpr

variable {R : Type} [CommRing R] {a b : LinearExpr R} {k : R}

namespace Reduced

theorem terms_eq (h : a.Reduced) : a.terms = a.vars.map fun var => ⟨a.form var, var⟩ := by
  rw [vars, List.map_map]
  refine (List.map_id _).symm.trans (List.map_congr_left fun t ht => ?_)
  rw [Function.comp_apply, form, formOf_apply_of_mem h.nodup_vars ht]
  rfl

/-- A reduced expression is its form and the order of its variables. -/
theorem eq_of_form_eq (ha : a.Reduced) (hb : b.Reduced) (hform : a.form = b.form)
    (hvars : a.vars = b.vars) : a = b := by
  have hterms : a.terms = b.terms := by
    rw [ha.terms_eq, hb.terms_eq, hform, hvars]
  exact congrArg LinearExpr.mk hterms

theorem scale (h : a.Reduced) (hk : IsRegular k) : (a.scale k).Reduced where
  nodup_vars := by
    rw [vars_scale]
    exact h.nodup_vars
  coef_ne_zero := by
    rw [terms_scale, List.forall_mem_map]
    exact fun t ht => mt hk.right.mul_right_eq_zero_iff.mp (h.coef_ne_zero t ht)

end Reduced

variable [DecidableEq R]

theorem vars_simplify (e : LinearExpr R) :
    e.simplify.vars = e.vars.eraseDups.filter fun var => e.form var ≠ 0 := by
  rw [vars, terms_simplify, merged, List.filter_map, List.map_map]
  simp only [form, formOf_apply]
  exact List.map_id _

theorem simplify_eq_simplify (hform : a.form = b.form)
    (hvars : (a.vars.eraseDups.filter fun var => b.form var ≠ 0) =
      b.vars.eraseDups.filter fun var => b.form var ≠ 0) : a.simplify = b.simplify := by
  refine a.reduced_simplify.eq_of_form_eq b.reduced_simplify ?_ ?_
  · rw [form_simplify, form_simplify, hform]
  · rw [vars_simplify, vars_simplify, hform, hvars]

theorem form_add_simplify (a b : LinearExpr R) : (a + b.simplify).form = (a + b).form := by
  rw [form_add, form_add, form_simplify]

theorem form_simplify_add (a b : LinearExpr R) : (a.simplify + b).form = (a + b).form := by
  rw [form_add, form_add, form_simplify]

/-- What the second part adds to the order of the variables are those of its own, and they cancel
in the sum if they cancel in that part. -/
theorem simplify_add_simplify (a b : LinearExpr R) :
    (a + b.simplify).simplify = (a + b).simplify := by
  refine simplify_eq_simplify (form_add_simplify a b) ?_
  have hlater : ((b.simplify.vars.filter fun var => var ∉ a.vars).filter fun var =>
      (a + b).form var ≠ 0) =
        ((b.vars.filter fun var => var ∉ a.vars).filter fun var =>
          (a + b).form var ≠ 0).eraseDups := by
    rw [vars_simplify, ← filter_eraseDups, ← filter_eraseDups, List.filter_filter,
      List.filter_filter, List.filter_filter]
    refine List.filter_congr fun var _ => ?_
    by_cases hvar : var ∈ a.vars
    · simp [hvar]
    · have hzero : a.form var = 0 := formOf_apply_of_notMem hvar
      simp [hvar, hzero, form_add]
  rw [vars_add, vars_add, filter_eraseDups_append, filter_eraseDups_append, hlater,
    eraseDups_eraseDups]

/-- The variables that both parts have must keep their place in the first one. -/
theorem simplify_simplify_add (h : ∀ var ∈ a.vars, var ∈ b.vars → a.form var ≠ 0) :
    (a.simplify + b).simplify = (a + b).simplify := by
  refine simplify_eq_simplify (form_simplify_add a b) ?_
  have hfirst : (a.simplify.vars.eraseDups.filter fun var => (a + b).form var ≠ 0) =
      a.vars.eraseDups.filter fun var => (a + b).form var ≠ 0 := by
    rw [eraseDups_of_nodup a.reduced_simplify.nodup_vars, vars_simplify, List.filter_filter]
    refine List.filter_congr fun var hvar => ?_
    by_cases hboth : var ∈ b.vars
    · simp [h var (List.mem_eraseDups.mp hvar) hboth]
    · have hzero : b.form var = 0 := formOf_apply_of_notMem hboth
      simp [hzero, form_add]
  have hlater : (b.vars.filter fun var => var ∉ a.simplify.vars) =
      b.vars.filter fun var => var ∉ a.vars := by
    refine List.filter_congr fun var hvar => ?_
    have hiff : var ∈ a.simplify.vars ↔ var ∈ a.vars :=
      ⟨fun hmem => a.vars_simplify_subset hmem,
        fun hmem => a.mem_vars_simplify_iff.mpr (h var hmem hvar)⟩
    exact decide_eq_decide.mpr hiff.not
  rw [vars_add, vars_add, filter_eraseDups_append, filter_eraseDups_append, hfirst, hlater]

theorem simplify_simplify_add_perm (a b : LinearExpr R) :
    (a.simplify + b).simplify.terms.Perm (a + b).simplify.terms := by
  rw [(reduced_simplify _).perm_iff (reduced_simplify _), form_simplify, form_simplify,
    form_simplify_add]

theorem simplify_scale (a : LinearExpr R) (hk : IsRegular k) :
    (a.scale k).simplify = a.simplify.scale k := by
  refine (reduced_simplify _).eq_of_form_eq (a.reduced_simplify.scale hk) ?_ ?_
  · rw [form_simplify, form_scale, form_scale, form_simplify]
  · rw [vars_simplify, vars_scale, vars_scale, vars_simplify]
    refine List.filter_congr fun var _ => ?_
    simp [form_scale, hk.left.mul_left_eq_zero_iff]

theorem simplify_scale_zero (a : LinearExpr R) : (a.scale 0).simplify.isEmpty = true := by
  rw [(reduced_simplify _).isEmpty_iff, form_simplify, form_scale, zero_smul]

/-- The second part of a sum may be simplified first, and so may an expression that is to be
negated or multiplied by anything but zero. If the first part of a sum is simplified first, the
terms may come in another order, but not if no variable of both parts cancels in the first one. -/
structure SimplifiesByParts (a b : LinearExpr R) : Prop where
  add_simplify : (a + b.simplify).simplify = (a + b).simplify
  simplify_add_perm : (a.simplify + b).simplify.terms.Perm (a + b).simplify.terms
  simplify_add : (∀ var ∈ a.vars, var ∈ b.vars → a.coefSum var ≠ 0) →
    (a.simplify + b).simplify = (a + b).simplify
  scale : ∀ k : R, k ≠ 0 → (a.scale k).simplify = a.simplify.scale k
  neg : (-a).simplify = -a.simplify
  scale_zero : (a.scale 0).simplify.isEmpty = true

theorem simplifiesByParts [NoZeroDivisors R] (a b : LinearExpr R) : SimplifiesByParts a b where
  add_simplify := simplify_add_simplify a b
  simplify_add_perm := simplify_simplify_add_perm a b
  simplify_add := by
    intro h
    simp only [coefSum_eq_form] at h
    exact simplify_simplify_add h
  scale _ hk := a.simplify_scale (IsRegular.of_ne_zero' hk)
  neg := a.simplify_scale isUnit_one.neg.isRegular
  scale_zero := a.simplify_scale_zero

/-- A variable that cancels. -/
def cancelled : LinearExpr PrimeField.babyBear.Element :=
  ⟨[⟨1, ⟨1⟩⟩, ⟨-1, ⟨1⟩⟩]⟩

/-- The same variable once more, after another one. -/
def returning : LinearExpr PrimeField.babyBear.Element :=
  ⟨[⟨1, ⟨2⟩⟩, ⟨1, ⟨1⟩⟩]⟩

/-- The variable that cancels in the first part stands first in the sum, unless that part is
simplified beforehand. -/
theorem simplifiesByParts_cancelled :
    NoZeroDivisors PrimeField.babyBear.Element ∧ SimplifiesByParts cancelled returning ∧
      (cancelled + returning).simplify = ⟨[⟨1, ⟨1⟩⟩, ⟨1, ⟨2⟩⟩]⟩ ∧
      (cancelled.simplify + returning).simplify = returning :=
  ⟨inferInstance, simplifiesByParts cancelled returning, by decide +kernel, by decide +kernel⟩

end CircuitDraft.LinearExpr
