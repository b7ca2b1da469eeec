import CircuitDraft.Proofs.ElementRing
import CircuitDraft.Proofs.FirstOccurrences
import CircuitDraft.Proofs.LinearForm

/-!
The terms that simplification leaves, told without the index that it works with: one for each
variable, in order of first occurrence, with the sum of all its coefficients, unless that is zero.
-/

namespace CircuitDraft

theorem PrimeField.Element.sum_eq_ofNat {K : PrimeField} (elements : List K.Element) :
    elements.sum = .ofNat (elements.map Element.val).sum := by
  induction elements with
  | nil => rfl
  | cons a rest ih =>
      rw [List.sum_cons, ih, List.map_cons, List.sum_cons]
      apply Element.ext
      rw [Element.val_add, Element.val_ofNat, Element.val_ofNat, Nat.add_mod_mod]

variable {R : Type} [CommRing R]

/-- The sum of the coefficients that a variable has. -/
def coefOf (terms : List (Term R)) (var : Variable) : R :=
  ((terms.filter fun t => t.var = var).map Term.coef).sum

/-- The distinct variables in order of first occurrence, each with the sum of its coefficients. -/
def merged (terms : List (Term R)) : List (Term R) :=
  (terms.map Term.var).eraseDups.map fun var => ⟨coefOf terms var, var⟩

theorem formOf_apply (terms : List (Term R)) (var : Variable) :
    formOf terms var = coefOf terms var := by
  induction terms with
  | nil => rfl
  | cons t rest ih =>
      rw [formOf_cons, Finsupp.add_apply, ih, Finsupp.single_apply, coefOf, coefOf,
        List.filter_cons]
      by_cases hvar : t.var = var
      · rw [if_pos hvar, if_pos (decide_eq_true hvar), List.map_cons, List.sum_cons]
      · rw [if_neg hvar, if_neg (mt of_decide_eq_true hvar), zero_add]

theorem coefOf_concat (terms : List (Term R)) (t : Term R) (var : Variable) :
    coefOf (terms ++ [t]) var = coefOf terms var + if t.var = var then t.coef else 0 := by
  rw [← formOf_apply, formOf_append, Finsupp.add_apply, formOf_apply, formOf_cons, formOf_nil,
    add_zero, Finsupp.single_apply]

theorem coefOf_of_notMem {terms : List (Term R)} {var : Variable}
    (hvar : var ∉ terms.map Term.var) : coefOf terms var = 0 :=
  (formOf_apply terms var).symm.trans (formOf_apply_of_notMem hvar)

theorem coefOf_eq_coef {terms : List (Term R)} (hnodup : (terms.map Term.var).Nodup) {t : Term R}
    (ht : t ∈ terms) : coefOf terms t.var = t.coef :=
  (formOf_apply terms t.var).symm.trans (formOf_apply_of_mem hnodup ht)

theorem map_var_merged (terms : List (Term R)) :
    (merged terms).map Term.var = (terms.map Term.var).eraseDups := by
  rw [merged, List.map_map]
  exact List.map_id _

/-- A further term of a variable that is there already raises its coefficient in its place. -/
theorem merged_concat_of_mem {terms : List (Term R)} {t : Term R}
    (ht : t.var ∈ terms.map Term.var) :
    merged (terms ++ [t]) = (merged terms).map fun u =>
      if u.var = t.var then { u with coef := u.coef + t.coef } else u := by
  rw [merged, List.map_append, List.map_singleton, eraseDups_concat_of_mem ht, merged, List.map_map]
  refine List.map_congr_left fun var _ => ?_
  rw [coefOf_concat, Function.comp_apply]
  by_cases hvar : t.var = var
  · rw [if_pos hvar, if_pos hvar.symm]
  · rw [if_neg hvar, if_neg (Ne.symm hvar), add_zero]

theorem merged_concat_of_notMem {terms : List (Term R)} {t : Term R}
    (ht : t.var ∉ terms.map Term.var) : merged (terms ++ [t]) = merged terms ++ [t] := by
  rw [merged, List.map_append, List.map_singleton, eraseDups_concat_of_notMem ht, List.map_append,
    merged]
  refine congrArg₂ (· ++ ·) (List.map_congr_left fun var hvar => ?_) ?_
  · have hne : t.var ≠ var := by
      rintro rfl
      exact ht (List.mem_eraseDups.mp hvar)
    rw [coefOf_concat, if_neg hne, add_zero]
  · rw [List.map_singleton, coefOf_concat, coefOf_of_notMem ht, if_pos rfl, zero_add]

theorem merged_of_nodup {terms : List (Term R)} (hnodup : (terms.map Term.var).Nodup) :
    merged terms = terms := by
  rw [merged, eraseDups_of_nodup hnodup, List.map_map]
  refine (List.map_congr_left fun t ht => ?_).trans terms.map_id
  rw [Function.comp_apply, coefOf_eq_coef hnodup ht]
  rfl

namespace Gathered

/-- What has been gathered of the terms so far, and that the index leads to it. -/
structure Gathers (gathered : Gathered R) (terms : List (Term R)) : Prop where
  indexed : gathered.Indexed Term.var
  entries : gathered.entries.toList = merged terms

theorem gathers_empty : Gathers ({} : Gathered R) [] :=
  ⟨Arena.indexed_empty Term.var, rfl⟩

theorem Gathers.insert {gathered : Gathered R} {terms : List (Term R)} (h : gathered.Gathers terms)
    (t : Term R) : (gathered.insert t).Gathers (terms ++ [t]) := by
  refine ⟨insert_indexed h.indexed t, ?_⟩
  have hknown : gathered.contains t.var = true ↔ t.var ∈ terms.map Term.var := by
    rw [h.indexed.contains_iff, h.entries, map_var_merged, List.mem_eraseDups]
  rw [Gathered.insert]
  split
  · next hcontains =>
    rw [h.indexed.toList_modify, h.entries, merged_concat_of_mem (hknown.mp hcontains)]
  · next hcontains =>
    rw [merged_concat_of_notMem (mt hknown.mpr hcontains), ← h.entries]
    exact Array.toList_push

theorem Gathers.foldl_insert {gathered : Gathered R} {terms : List (Term R)}
    (h : gathered.Gathers terms) (later : List (Term R)) :
    (later.foldl Gathered.insert gathered).Gathers (terms ++ later) := by
  induction later generalizing gathered terms with
  | nil => rwa [List.append_nil]
  | cons t rest ih =>
      have hrest := ih (h.insert t)
      rwa [List.append_assoc] at hrest

end Gathered

namespace LinearExpr

/-- The sum of the coefficients that a variable has in an expression. -/
def coefSum (e : LinearExpr R) (var : Variable) : R :=
  coefOf e.terms var

theorem coefSum_eq_form (e : LinearExpr R) (var : Variable) : e.coefSum var = e.form var :=
  (formOf_apply e.terms var).symm

/-- In a prime field the coefficients are summed modulo the modulus. -/
theorem coefSum_eq_ofNat {K : PrimeField} (e : LinearExpr K.Element) (var : Variable) :
    e.coefSum var =
      .ofNat ((e.terms.filter fun t => t.var = var).map fun t => t.coef.val).sum := by
  rw [coefSum, coefOf, PrimeField.Element.sum_eq_ofNat, List.map_map]
  rfl

variable [DecidableEq R]

theorem terms_simplify (e : LinearExpr R) :
    e.simplify.terms = (merged e.terms).filter fun t => t.coef ≠ 0 := by
  have hgathers := Gathered.gathers_empty.foldl_insert e.terms
  exact congrArg (List.filter fun t => t.coef ≠ 0) hgathers.entries

theorem Reduced.simplify_eq {e : LinearExpr R} (h : e.Reduced) : e.simplify = e := by
  have hterms : e.simplify.terms = e.terms := by
    rw [terms_simplify, merged_of_nodup h.nodup_vars, List.filter_eq_self]
    exact fun t ht => decide_eq_true (h.coef_ne_zero t ht)
  exact congrArg LinearExpr.mk hterms

theorem mem_simplify_of_ne_zero {e : LinearExpr R} {var : Variable} (hvar : var ∈ e.vars)
    (hne : e.coefSum var ≠ 0) : ⟨e.coefSum var, var⟩ ∈ e.simplify.terms := by
  rw [terms_simplify, List.mem_filter]
  exact ⟨List.mem_map_of_mem (List.mem_eraseDups.mpr hvar), decide_eq_true hne⟩

/-- Simplification leaves one term for each variable whose coefficients do not cancel, the
constant-one wire like any other, in order of first occurrence. A second one changes nothing. -/
structure SimplifiesByVariable (e : LinearExpr R) : Prop where
  terms : e.simplify.terms =
    (e.vars.eraseDups.map fun var => ⟨e.coefSum var, var⟩).filter fun t => t.coef ≠ 0
  nodup_vars : e.simplify.vars.Nodup
  coef_ne_zero : ∀ t ∈ e.simplify.terms, t.coef ≠ 0
  survives : ∀ var ∈ e.vars, e.coefSum var ≠ 0 → ⟨e.coefSum var, var⟩ ∈ e.simplify.terms
  idempotent : e.simplify.simplify = e.simplify

theorem simplifiesByVariable (e : LinearExpr R) : e.SimplifiesByVariable where
  terms := e.terms_simplify
  nodup_vars := e.reduced_simplify.nodup_vars
  coef_ne_zero := e.reduced_simplify.coef_ne_zero
  survives _ := mem_simplify_of_ne_zero
  idempotent := e.reduced_simplify.simplify_eq

-- The second variable cancels and comes back, the first one cancels for good.
example :
    (⟨[⟨3, ⟨4⟩⟩, ⟨2, ⟨1⟩⟩, ⟨5, .one⟩, ⟨-2, ⟨1⟩⟩, ⟨-3, ⟨4⟩⟩, ⟨7, ⟨1⟩⟩, ⟨1, .one⟩]⟩ :
        LinearExpr PrimeField.babyBear.Element).simplify =
      ⟨[⟨7, ⟨1⟩⟩, ⟨6, .one⟩]⟩ := by
  decide +kernel

end LinearExpr

end CircuitDraft
