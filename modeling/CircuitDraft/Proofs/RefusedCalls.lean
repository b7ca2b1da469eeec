import CircuitDraft.Proofs.Reachable

/-!
A call that is refused leaves the draft as it was, so it can be left out of a sequence of calls.
-/

namespace CircuitDraft.Draft

variable {K : PrimeField} {draft : Draft K}

/-- The calls of a sequence that are not refused. -/
def accepted (draft : Draft K) (calls : List Call) : List Call :=
  ((draft.history calls).filter fun step => step.2.isOk).map Prod.fst

theorem accepted_cons_of_ok {call : Call} {reply : Reply K}
    (hanswer : (draft.perform call).answer = .ok reply) (rest : List Call) :
    draft.accepted (call :: rest) = call :: (draft.perform call).state.accepted rest := by
  rw [accepted, history_cons, List.filter_cons_of_pos (by rw [hanswer]; rfl)]
  rfl

theorem accepted_cons_of_error {call : Call} {cause : BuildError}
    (hanswer : (draft.perform call).answer = .error cause) (rest : List Call) :
    draft.accepted (call :: rest) = (draft.perform call).state.accepted rest := by
  rw [accepted, history_cons, List.filter_cons_of_neg (by rw [hanswer]; exact Bool.false_ne_true)]
  rfl

theorem Turn.state_of_error {call : Call} {outcome : Outcome (Draft K) (Reply K)}
    (hturn : draft.Turn call outcome) {cause : BuildError}
    (hanswer : outcome.answer = .error cause) : outcome.state = draft := by
  cases hturn with
  | refused _ => rfl
  | _ => cases hanswer

theorem run_accepted (h : draft.registry.Consistent) (calls : List Call) :
    draft.run (draft.accepted calls) = draft.run calls := by
  induction calls generalizing draft with
  | nil => rfl
  | cons call rest ih =>
      have hturn := perform_turn h call
      have hrest := ih (hturn.consistent h)
      cases hanswer : (draft.perform call).answer with
      | ok reply => rw [accepted_cons_of_ok hanswer, run_cons, run_cons, hrest]
      | error cause =>
          -- The rest runs from the draft as it was before the call.
          have hstate := hturn.state_of_error hanswer
          rw [hstate] at hrest
          rw [accepted_cons_of_error hanswer, run_cons, hstate, hrest]

theorem history_accepted (h : draft.registry.Consistent) (calls : List Call) :
    draft.history (draft.accepted calls) =
      (draft.history calls).filter fun step => step.2.isOk := by
  induction calls generalizing draft with
  | nil => rfl
  | cons call rest ih =>
      have hturn := perform_turn h call
      have hrest := ih (hturn.consistent h)
      cases hanswer : (draft.perform call).answer with
      | ok reply =>
          rw [accepted_cons_of_ok hanswer, history_cons, history_cons, hrest,
            List.filter_cons_of_pos (by rw [hanswer]; rfl)]
      | error cause =>
          have hstate := hturn.state_of_error hanswer
          rw [hstate] at hrest
          rw [accepted_cons_of_error hanswer, history_cons, hstate, hrest,
            List.filter_cons_of_neg (by rw [hanswer]; exact Bool.false_ne_true)]

/-- Without the calls that are refused, a sequence of calls gets the same answers to the others and
leads to the same draft, the counter, the registry, the public inputs and the journal included. -/
structure ForgetsRefusals (start : Draft K) : Prop where
  history : ∀ calls, start.history (start.accepted calls) =
    (start.history calls).filter fun step => step.2.isOk
  run : ∀ calls, start.run (start.accepted calls) = start.run calls

theorem IsNew.forgetsRefusals {start : Draft K} (hnew : start.IsNew) : start.ForgetsRefusals where
  history := history_accepted hnew.consistent
  run := run_accepted hnew.consistent

theorem forgetsRefusals_three_refused :
    (empty {} : Draft .babyBear).IsNew ∧ (empty {} : Draft .babyBear).ForgetsRefusals ∧
      (empty {} : Draft .babyBear).accepted
          [.circuitInput ⟨7⟩ (.plain "early"), .register ⟨7⟩, .circuitInput ⟨7⟩ (.plain "x"),
            .register ⟨7⟩, .registerNext, .addOutput ⟨7⟩ ⟨2⟩, .addOutput ⟨7⟩ ⟨1⟩] =
        [.register ⟨7⟩, .circuitInput ⟨7⟩ (.plain "x"), .registerNext, .addOutput ⟨7⟩ ⟨1⟩] :=
  ⟨isNew_empty {}, (isNew_empty {}).forgetsRefusals, by decide +kernel⟩

end CircuitDraft.Draft
