import CircuitDraft.Variable

namespace CircuitDraft

/-- A coefficient times a variable. -/
structure Term (F : Type) where
  coef : F
  var : Variable
deriving DecidableEq

def Term.map {F G : Type} (f : F → G) (t : Term F) : Term G :=
  ⟨f t.coef, t.var⟩

/-- A sum of terms, kept as it was put together: the order of the terms and repeated variables
are part of the expression. -/
structure LinearExpr (F : Type) where
  terms : List (Term F) := []
deriving DecidableEq

namespace LinearExpr

variable {F : Type}

def size (e : LinearExpr F) : Nat :=
  e.terms.length

def isEmpty (e : LinearExpr F) : Bool :=
  e.terms.isEmpty

/-- The variables of the terms, in term order and with repetitions. -/
def vars (e : LinearExpr F) : List Variable :=
  e.terms.map Term.var

def map {G : Type} (f : F → G) (e : LinearExpr F) : LinearExpr G :=
  ⟨e.terms.map (Term.map f)⟩

def push (e : LinearExpr F) (coef : F) (var : Variable) : LinearExpr F :=
  ⟨e.terms ++ [⟨coef, var⟩]⟩

def ofTerm (coef : F) (var : Variable) : LinearExpr F :=
  ⟨[⟨coef, var⟩]⟩

def ofVariable [One F] (var : Variable) : LinearExpr F :=
  ofTerm 1 var

/-- A constant is a multiple of the constant-one wire. -/
def constant (c : F) : LinearExpr F :=
  ofTerm c .one

def scale [Mul F] (e : LinearExpr F) (k : F) : LinearExpr F :=
  ⟨e.terms.map fun t => ⟨t.coef * k, t.var⟩⟩

instance : Add (LinearExpr F) where
  add a b := ⟨a.terms ++ b.terms⟩

instance [Mul F] [Neg F] [One F] : Neg (LinearExpr F) where
  neg a := a.scale (-1)

instance [Mul F] [Neg F] [One F] : Sub (LinearExpr F) where
  sub a b := a + -b

instance [Mul F] : HMul (LinearExpr F) F (LinearExpr F) where
  hMul e k := e.scale k

/-- The variable that an expression consists of, if it is a single variable with coefficient one. -/
def singleVariable? [One F] [DecidableEq F] (e : LinearExpr F) : Option Variable :=
  match e.terms with
  | [t] => if t.coef = 1 ∧ t.var ≠ .one then some t.var else none
  | _ => none

/-- The constant that an expression consists of, if all its terms are on the constant-one wire. -/
def constant? [Add F] [Zero F] (e : LinearExpr F) : Option F :=
  e.terms.foldlM (fun sum t => if t.var = .one then some (sum + t.coef) else none) 0

theorem map_map {G H : Type} (f : F → G) (g : G → H) (e : LinearExpr F) :
    (e.map f).map g = e.map (g ∘ f) := by
  simp [map, Term.map, Function.comp_def]

theorem singleVariable?_eq_some_iff [One F] [DecidableEq F] {e : LinearExpr F} {var : Variable} :
    e.singleVariable? = some var ↔ e = .ofVariable var ∧ var ≠ .one := by
  constructor
  · intro h
    obtain ⟨terms⟩ := e
    simp only [singleVariable?] at h
    split at h
    · next t =>
      split at h
      · next hterm =>
        obtain ⟨coef, v⟩ := t
        obtain ⟨rfl, hone⟩ := hterm
        obtain rfl := Option.some.inj h
        exact ⟨rfl, hone⟩
      · cases h
    · cases h
  · rintro ⟨rfl, hone⟩
    exact if_pos ⟨rfl, hone⟩

@[simp]
theorem terms_push (e : LinearExpr F) (coef : F) (var : Variable) :
    (e.push coef var).terms = e.terms ++ [⟨coef, var⟩] :=
  rfl

@[simp]
theorem terms_add (a b : LinearExpr F) : (a + b).terms = a.terms ++ b.terms :=
  rfl

@[simp]
theorem terms_scale [Mul F] (e : LinearExpr F) (k : F) :
    (e.scale k).terms = e.terms.map fun t => ⟨t.coef * k, t.var⟩ :=
  rfl

theorem neg_eq_scale [Mul F] [Neg F] [One F] (a : LinearExpr F) : -a = a.scale (-1) :=
  rfl

theorem sub_eq_add_neg [Mul F] [Neg F] [One F] (a b : LinearExpr F) : a - b = a + -b :=
  rfl

@[simp]
theorem vars_add (a b : LinearExpr F) :
    (a + b).vars = a.vars ++ b.vars := by
  simp [vars]

@[simp]
theorem vars_scale [Mul F] (e : LinearExpr F) (k : F) :
    (e.scale k).vars = e.vars := by
  simp [vars, Function.comp_def]

end LinearExpr

end CircuitDraft
