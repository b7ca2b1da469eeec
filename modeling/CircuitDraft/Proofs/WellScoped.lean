import CircuitDraft.Proofs.CallHistory
import CircuitDraft.Proofs.ElementRing
import CircuitDraft.Proofs.Evaluation
import CircuitDraft.Proofs.Extension

/-!
Whatever is computed from the variables and constants of a draft speaks of variables of that draft,
and goes on to do so while the draft grows.
-/

namespace CircuitDraft.Draft

variable {K : PrimeField} {draft start : Draft K} {calls : List Call} {var : Variable}
  {e : LinearExpr K.Element}

/-- The expressions that can be put together from those that the calls on a draft were answered with
and from constants, which a draft gives at any time. -/
inductive Built (start : Draft K) (calls : List Call) : LinearExpr K.Element → Prop
  | answered {call : Call} {e : LinearExpr K.Element}
      (hstep : (call, .ok (.expr e)) ∈ start.history calls) : Built start calls e
  | constant (count : Nat) (c : K.Element) :
      Built start calls ((start.run (calls.take count)).constant c)
  | add {a b : LinearExpr K.Element} (ha : Built start calls a) (hb : Built start calls b) :
      Built start calls (a + b)
  | sub {a b : LinearExpr K.Element} (ha : Built start calls a) (hb : Built start calls b) :
      Built start calls (a - b)
  | neg {a : LinearExpr K.Element} (ha : Built start calls a) : Built start calls (-a)
  | scale {a : LinearExpr K.Element} (ha : Built start calls a) (k : K.Element) :
      Built start calls (a.scale k)
  | mul {a : LinearExpr K.Element} (ha : Built start calls a) (k : K.Element) :
      Built start calls (a * k)
  | simplify {a : LinearExpr K.Element} (ha : Built start calls a) : Built start calls a.simplify

theorem Minted.run (hminted : draft.Minted var) (h : draft.Reachable) (calls : List Call) :
    (draft.run calls).Minted var :=
  ⟨hminted.1, Nat.le_trans hminted.2 (h.extends_run calls).varCount⟩

theorem Turn.over_minted {call : Call} {outcome : Outcome (Draft K) (Reply K)}
    (hturn : draft.Turn call outcome) (hstarted : draft.counter.Started)
    (hanswer : outcome.answer = .ok (.expr e)) : e.Over outcome.state.Minted := by
  cases hturn with
  | @declared _ d var _ _ hnext =>
      cases hanswer
      have hbefore : draft.varCount + 1 = var.number.toNat := Counter.count_of_next hstarted hnext
      have hafter : (draft.enter (d.entry var)).varCount = var.number.toNat :=
        Counter.count_succ? var
      exact .ofVariable ⟨by omega, Nat.le_of_eq hafter.symm⟩
  | _ => cases hanswer

theorem Reachable.constant_eq (h : draft.Reachable) (c : K.Element) :
    draft.constant c = LinearExpr.constant c := by
  have hroot := h.consistent.mem_of_find? h.consistent.find?_root
  have hone : draft.one = .one := (h.recorded.scopes draft.registry.root hroot).one
  rw [constant, hone, LinearExpr.constant]

/-- By induction on how the expression was built. -/
theorem Built.over_minted (hbuilt : start.Built calls e) (h : start.Reachable) :
    e.Over (start.run calls).Minted := by
  induction hbuilt with
  | @answered call e hstep =>
      obtain ⟨earlier, later, rfl, hanswer⟩ := mem_history_iff.mp hstep
      have hbefore := h.run earlier
      have hover := (perform_turn hbefore.consistent call).over_minted hbefore.recorded.started
        hanswer
      rw [run_append, run_cons]
      exact hover.mono fun var hminted => hminted.run (hbefore.perform call) later
  | constant count c =>
      rw [(h.run _).constant_eq]
      exact .constant c
  | add _ _ iha ihb => exact iha.add ihb
  | sub _ _ iha ihb => exact iha.add (ihb.scale (-1))
  | neg _ ih => exact ih.scale (-1)
  | scale _ k ih | mul _ k ih => exact ih.scale k
  | simplify _ ih => exact ih.simplify

/-- An expression speaks of the constant-one wire and of variables that each belong to one scope of
the draft, and values for the variables of the draft are enough to evaluate it. -/
structure WellScoped (draft : Draft K) (e : LinearExpr K.Element) : Prop where
  vars : ∀ var ∈ e.vars, var = .one ∨ draft.Minted var ∧ ∃! id, draft.owns id var = true
  evaluates : ∀ assignment : Variable → Option K.Element,
    (∀ var, draft.Minted var → (assignment var).isSome = true) →
      (e.evaluate assignment).value.isSome = true

theorem Reachable.wellScoped (h : draft.Reachable) (hover : e.Over draft.Minted) :
    draft.WellScoped e where
  vars var hvar := (hover var hvar).imp_right fun hminted =>
    ⟨hminted, h.recorded.existsUnique_owns h.consistent hminted⟩
  evaluates _ hdefined := hover.isSome_evaluate hdefined

/-- An expression is well scoped after the calls and after any further ones, and no variable that
those mint has a part in its value. -/
structure StaysScoped (start : Draft K) (calls : List Call) (e : LinearExpr K.Element) : Prop where
  now : (start.run calls).WellScoped e
  later : ∀ further, (start.run (calls ++ further)).WellScoped e
  determined : ∀ assignment assignment' : Variable → Option K.Element,
    (∀ var, (start.run calls).Minted var → assignment var = assignment' var) →
      e.evaluate assignment = e.evaluate assignment'

theorem IsNew.staysScoped (hnew : start.IsNew) (hbuilt : start.Built calls e) :
    start.StaysScoped calls e where
  now := (hnew.reachable.run calls).wellScoped (hbuilt.over_minted hnew.reachable)
  later := by
    intro further
    have hrun := hnew.reachable.run calls
    rw [run_append]
    apply (hrun.run further).wellScoped
    exact (hbuilt.over_minted hnew.reachable).mono fun _ hminted => hminted.run hrun further
  determined _ _ hagree := (hbuilt.over_minted hnew.reachable).evaluate_eq hagree

/-- Two declarations in different scopes, and a call between them that is refused. -/
def twoWires : List Call :=
  [.secretInput (.plain "a"), .getOrRegister ⟨7⟩, .addOutput ⟨7⟩ ⟨1⟩,
    .circuitInput ⟨7⟩ (.plain "x")]

/-- Twice the first wire and the constant five, less the second wire. -/
def combined : LinearExpr PrimeField.babyBear.Element :=
  (((.ofVariable ⟨1⟩ + .ofVariable ⟨1⟩) + (empty {}).constant 5) - .ofVariable ⟨2⟩).simplify

theorem staysScoped_combined :
    (empty {} : Draft .babyBear).IsNew ∧ (empty {}).Built twoWires combined ∧
      (empty {}).StaysScoped twoWires combined ∧
      (combined.evaluate fun var =>
        if var.number = 1 then some 10 else if var.number = 2 then some 4 else none) =
          ⟨some 21, [⟨1⟩, ⟨2⟩]⟩ := by
  have hfirst : (Call.secretInput (.plain "a"), .ok (.expr (.ofVariable ⟨1⟩))) ∈
      (empty {} : Draft .babyBear).history twoWires := by decide +kernel
  have hsecond : (Call.circuitInput ⟨7⟩ (.plain "x"), .ok (.expr (.ofVariable ⟨2⟩))) ∈
      (empty {} : Draft .babyBear).history twoWires := by decide +kernel
  have hdoubled := Built.add (.answered hfirst) (.answered hfirst)
  have hbuilt : (empty {}).Built twoWires combined :=
    .simplify (.sub (.add hdoubled (.constant 0 5)) (.answered hsecond))
  exact ⟨isNew_empty {}, hbuilt, (isNew_empty {}).staysScoped hbuilt, by decide +kernel⟩

end CircuitDraft.Draft
