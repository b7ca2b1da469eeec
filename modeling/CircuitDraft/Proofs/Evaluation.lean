import CircuitDraft.Proofs.LinearForm

/-!
Evaluation under a partial assignment: when it has a value, and which part of the assignment decides
it. The constant-one wire carries one whatever the assignment says.
-/

namespace CircuitDraft.LinearExpr

variable {F : Type} [Add F] [Mul F] [One F]

theorem isSome_evaluateFrom (assignment : Variable → Option F) (sum : F) (terms : List (Term F)) :
    (evaluateFrom assignment sum terms).value.isSome = true ↔
      ∀ t ∈ terms, t.var ≠ .one → (assignment t.var).isSome = true := by
  induction terms generalizing sum with
  | nil => exact iff_of_true rfl nofun
  | cons t rest ih =>
      rw [evaluateFrom_cons, Evaluation.value_andThen, Option.isSome_bind, Option.any_eq_true,
        List.forall_mem_cons, ← isSome_ask_iff, Option.isSome_iff_exists, ← exists_and_right]
      simp only [ih]

theorem evaluateFrom_congr {assignment assignment' : Variable → Option F} {terms : List (Term F)}
    (h : ∀ t ∈ terms, t.var ≠ .one → assignment t.var = assignment' t.var) (sum : F) :
    evaluateFrom assignment sum terms = evaluateFrom assignment' sum terms := by
  induction terms generalizing sum with
  | nil => rfl
  | cons t rest ih =>
      obtain ⟨hfirst, hrest⟩ := List.forall_mem_cons.mp h
      rw [evaluateFrom_cons, evaluateFrom_cons, ask_congr hfirst]
      simp only [ih hrest]

section Evaluate

variable [Zero F] {e : LinearExpr F} {assignment assignment' : Variable → Option F}

/-- An expression has a value when all its variables have one. -/
theorem isSome_evaluate_iff : (e.evaluate assignment).value.isSome = true ↔
    ∀ var ∈ e.vars, var ≠ .one → (assignment var).isSome = true := by
  rw [evaluate, isSome_evaluateFrom, vars, List.forall_mem_map]

theorem evaluate_congr (h : ∀ var ∈ e.vars, var ≠ .one → assignment var = assignment' var) :
    e.evaluate assignment = e.evaluate assignment' :=
  evaluateFrom_congr (List.forall_mem_map.mp h) 0

end Evaluate

section Simplify

variable {R : Type} [CommRing R] [DecidableEq R]

theorem mem_vars_simplify_iff (e : LinearExpr R) {var : Variable} :
    var ∈ e.simplify.vars ↔ e.form var ≠ 0 := by
  rw [e.reduced_simplify.mem_vars_iff, form_simplify]

theorem vars_simplify_subset (e : LinearExpr R) : e.simplify.vars ⊆ e.vars := by
  intro var hvar
  by_contra hnot
  exact e.mem_vars_simplify_iff.mp hvar (formOf_apply_of_notMem hnot)

end Simplify

/-- An expression speaks only of variables of a certain kind and of the constant-one wire. -/
def Over {F : Type} (e : LinearExpr F) (P : Variable → Prop) : Prop :=
  ∀ var ∈ e.vars, var = .one ∨ P var

namespace Over

variable {P Q : Variable → Prop}

theorem mono {F : Type} {e : LinearExpr F} (h : e.Over P) (hPQ : ∀ var, P var → Q var) :
    e.Over Q :=
  fun var hvar => (h var hvar).imp_right (hPQ var)

theorem constant {F : Type} (c : F) : (constant c).Over P := by
  intro var hvar
  exact .inl (List.mem_singleton.mp hvar)

theorem ofVariable {F : Type} [One F] {var : Variable} (hvar : P var) :
    (ofVariable var : LinearExpr F).Over P := by
  intro v hv
  obtain rfl := List.mem_singleton.mp hv
  exact .inr hvar

theorem add {F : Type} {a b : LinearExpr F} (ha : a.Over P) (hb : b.Over P) : (a + b).Over P := by
  intro var hvar
  rw [vars_add, List.mem_append] at hvar
  exact hvar.elim (ha var) (hb var)

theorem scale {F : Type} [Mul F] {e : LinearExpr F} (h : e.Over P) (k : F) :
    (e.scale k).Over P := by
  intro var hvar
  rw [vars_scale] at hvar
  exact h var hvar

theorem simplify {R : Type} [CommRing R] [DecidableEq R] {e : LinearExpr R} (h : e.Over P) :
    e.simplify.Over P :=
  fun var hvar => h var (e.vars_simplify_subset hvar)

variable {F : Type} [Add F] [Mul F] [One F] [Zero F] {e : LinearExpr F}
  {assignment assignment' : Variable → Option F}

theorem isSome_evaluate (h : e.Over P) (hdefined : ∀ var, P var → (assignment var).isSome = true) :
    (e.evaluate assignment).value.isSome = true := by
  apply isSome_evaluate_iff.mpr
  intro var hvar hne
  exact hdefined var ((h var hvar).resolve_left hne)

theorem evaluate_eq (h : e.Over P) (hagree : ∀ var, P var → assignment var = assignment' var) :
    e.evaluate assignment = e.evaluate assignment' := by
  apply evaluate_congr
  intro var hvar hne
  exact hagree var ((h var hvar).resolve_left hne)

end Over

end CircuitDraft.LinearExpr
