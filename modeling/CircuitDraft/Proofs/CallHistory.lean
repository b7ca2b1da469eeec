import CircuitDraft.Proofs.JournalHistory

/-!
The journal of a draft, read off the calls that were made on it and the answers that they got.
-/

namespace CircuitDraft

/-- The variable that a reply hands over. -/
def Reply.var? {K : PrimeField} : Reply K → Option Variable
  | .expr e => e.singleVariable?
  | .circuit _ => none
  | .lookup _ => none
  | .marked => none

namespace Draft

variable {K : PrimeField} {draft : Draft K} {call : Call} {var : Variable}

def varOf? (answer : Except BuildError (Reply K)) : Option Variable :=
  answer.toOption.bind Reply.var?

theorem varOf?_eq_some_iff {answer : Except BuildError (Reply K)} :
    varOf? answer = some var ↔ answer = .ok (.expr (.ofVariable var)) ∧ var ≠ .one := by
  cases answer with
  | error cause => exact iff_of_false nofun nofun
  | ok reply =>
      cases reply with
      | expr e =>
          rw [Except.ok.injEq, Reply.expr.injEq]
          exact LinearExpr.singleVariable?_eq_some_iff
      | circuit _ | lookup _ | marked => exact iff_of_false nofun nofun

/-- The entry that a step of a history made in the journal. -/
def entryMade? (step : Call × Except BuildError (Reply K)) : Option Journal.Entry :=
  step.1.declaration?.bind fun d => (varOf? step.2).map d.entry

theorem entryMade?_eq_some_iff {step : Call × Except BuildError (Reply K)} {entry : Journal.Entry} :
    entryMade? step = some entry ↔ ∃ d, step.1.declaration? = some d ∧ d.entry entry.var = entry ∧
      step.2 = .ok (.expr (.ofVariable entry.var)) ∧ entry.var ≠ .one := by
  rw [entryMade?, Option.bind_eq_some_iff]
  refine exists_congr fun d => and_congr_right fun _ => ?_
  rw [Option.map_eq_some_iff]
  constructor
  · rintro ⟨var, hvar, rfl⟩
    exact ⟨rfl, varOf?_eq_some_iff.mp hvar⟩
  · rintro ⟨hentry, hanswer⟩
    exact ⟨entry.var, varOf?_eq_some_iff.mpr hanswer, hentry⟩

@[simp]
theorem entryMade?_error (call : Call) (cause : BuildError) :
    entryMade? (call, (.error cause : Except BuildError (Reply K))) = none := by
  rw [entryMade?]
  cases call.declaration? <;> rfl

/-- Only a declaring call is answered with an expression, which is the variable that came next. -/
theorem Turn.declared_of_expr {outcome : Outcome (Draft K) (Reply K)}
    (hturn : draft.Turn call outcome) {e : LinearExpr K.Element}
    (hanswer : outcome.answer = .ok (.expr e)) :
    ∃ d var, call.declaration? = some d ∧ draft.counter.next = some var ∧ e = .ofVariable var := by
  cases hturn with
  | @declared _ d var hd _ hnext =>
      cases hanswer
      exact ⟨d, var, hd, hnext, rfl⟩
  | _ => cases hanswer

theorem ne_one_of_next (hstarted : draft.counter.Started) (hnext : draft.counter.next = some var) :
    var ≠ .one := by
  rintro rfl
  exact hstarted hnext

theorem entryMade?_of_next (hstarted : draft.counter.Started) {d : Declaration}
    (hd : call.declaration? = some d) (hnext : draft.counter.next = some var) :
    entryMade? (call, .ok (.expr (.ofVariable var) : Reply K)) = some (d.entry var) :=
  entryMade?_eq_some_iff.mpr ⟨d, hd, rfl, rfl, ne_one_of_next hstarted hnext⟩

/-- Where a history hands over a variable, a declaring call minted it. -/
theorem declared_of_mem_history (h : draft.Reachable) {calls : List Call}
    (hstep : (call, .ok (.expr (.ofVariable var))) ∈ draft.history calls) :
    ∃ d, call.declaration? = some d ∧ var ≠ .one := by
  obtain ⟨earlier, later, -, hanswer⟩ := mem_history_iff.mp hstep
  have hbefore := h.run earlier
  obtain ⟨d, minted, hd, hnext, hexpr⟩ :=
    (perform_turn hbefore.consistent call).declared_of_expr hanswer
  cases hexpr
  exact ⟨d, hd, ne_one_of_next hbefore.recorded.started hnext⟩

theorem ne_one_of_mem_history (h : draft.Reachable) {calls : List Call}
    (hstep : (call, .ok (.expr (.ofVariable var))) ∈ draft.history calls) : var ≠ .one := by
  obtain ⟨_, -, hne⟩ := declared_of_mem_history h hstep
  exact hne

theorem Turn.journal_eq {outcome : Outcome (Draft K) (Reply K)} (hturn : draft.Turn call outcome)
    (hstarted : draft.counter.Started) :
    outcome.state.journal.toList =
      draft.journal.toList ++ (entryMade? (call, outcome.answer)).toList := by
  cases hturn with
  | refused _ => simp
  | @declared _ d var hd _ hnext =>
      rw [entryMade?_of_next hstarted hd hnext]
      exact draft.journal.toList_push (d.entry var)
  | _ => exact (List.append_nil _).symm

theorem run_journal (h : draft.Reachable) (calls : List Call) :
    (draft.run calls).journal.toList =
      draft.journal.toList ++ (draft.history calls).filterMap entryMade? := by
  induction calls generalizing draft with
  | nil => exact (List.append_nil _).symm
  | cons call rest ih =>
      have hturn := perform_turn h.consistent call
      rw [run_cons, ih (h.perform call), hturn.journal_eq h.recorded.started, history_cons,
        List.append_assoc, List.filterMap_cons]
      cases entryMade? (call, (draft.perform call).answer) <;> rfl

theorem IsNew.run_journal {start : Draft K} (hnew : start.IsNew) (calls : List Call) :
    (start.run calls).journal.toList = (start.history calls).filterMap entryMade? := by
  rw [Draft.run_journal hnew.reachable]
  obtain ⟨config, rfl⟩ := hnew.exists_config
  rfl

theorem IsNew.mem_journal_iff {start : Draft K} (hnew : start.IsNew) (calls : List Call)
    {entry : Journal.Entry} :
    entry ∈ (start.run calls).journal.toList ↔ ∃ call d, call.declaration? = some d ∧
      d.entry entry.var = entry ∧
        (call, .ok (.expr (.ofVariable entry.var))) ∈ start.history calls := by
  rw [hnew.run_journal, List.mem_filterMap]
  constructor
  · rintro ⟨⟨call, answer⟩, hstep, hentry⟩
    obtain ⟨d, hd, heq, rfl, -⟩ := entryMade?_eq_some_iff.mp hentry
    exact ⟨call, d, hd, heq, hstep⟩
  · rintro ⟨call, d, hd, heq, hstep⟩
    exact ⟨_, hstep, entryMade?_eq_some_iff.mpr
      ⟨d, hd, heq, rfl, ne_one_of_mem_history hnew.reachable hstep⟩⟩

/-- To count entries of the journal is to count the calls that made them. -/
theorem Turn.counts_entry {outcome : Outcome (Draft K) (Reply K)} (hturn : draft.Turn call outcome)
    (hstarted : draft.counter.Started) {p : Journal.Entry → Bool} {q : Call → Bool}
    (hdeclares : ∀ call d var, call.declaration? = some d → p (d.entry var) = q call)
    (hother : ∀ call, call.declaration? = none → q call = false) :
    ((entryMade? (call, outcome.answer)).map p).getD false =
      (q call && outcome.answer.isOk) := by
  cases hturn with
  | refused _ =>
      rw [entryMade?_error]
      exact (Bool.and_false _).symm
  | @declared _ d var hd _ hnext =>
      rw [entryMade?_of_next hstarted hd hnext, ← hdeclares call d var hd]
      exact (Bool.and_true _).symm
  | _ =>
      rw [hother _ rfl]
      rfl

theorem Reachable.countP_journal (h : draft.Reachable) (calls : List Call)
    (p : Journal.Entry → Bool) (q : Call → Bool)
    (hdeclares : ∀ call d var, call.declaration? = some d → p (d.entry var) = q call)
    (hother : ∀ call, call.declaration? = none → q call = false) :
    (draft.run calls).journal.toList.countP p = draft.journal.toList.countP p +
      (draft.history calls).countP fun step => q step.1 && step.2.isOk := by
  rw [run_journal h, List.countP_append, List.countP_filterMap]
  refine congrArg _ (List.countP_congr fun step hstep => ?_)
  obtain ⟨earlier, later, -, hanswer⟩ := mem_history_iff.mp hstep
  have hbefore := h.run earlier
  have hturn := perform_turn hbefore.consistent step.1
  have hcounts := hturn.counts_entry hbefore.recorded.started hdeclares hother
  rw [hanswer] at hcounts
  rw [hcounts]

theorem IsNew.countP_journal {start : Draft K} (hnew : start.IsNew) (calls : List Call)
    (p : Journal.Entry → Bool) (q : Call → Bool)
    (hdeclares : ∀ call d var, call.declaration? = some d → p (d.entry var) = q call)
    (hother : ∀ call, call.declaration? = none → q call = false) :
    (start.run calls).journal.toList.countP p =
      (start.history calls).countP fun step => q step.1 && step.2.isOk := by
  rw [hnew.reachable.countP_journal calls p q hdeclares hother]
  obtain ⟨config, rfl⟩ := hnew.exists_config
  exact Nat.zero_add _

/-- The calls of a sequence that declare a variable are as many as the numbers it uses up. -/
theorem Reachable.varCount_run_eq (h : draft.Reachable) (calls : List Call) :
    (draft.run calls).varCount = draft.varCount +
      (draft.history calls).countP fun step => step.1.declaration?.isSome && step.2.isOk := by
  rw [← (h.run calls).recorded.length_journal, ← h.recorded.length_journal]
  simp only [← List.countP_true]
  apply h.countP_journal calls _ fun call => call.declaration?.isSome
  · intro call d var hd
    rw [hd]
    rfl
  · intro call hd
    rw [hd]
    rfl

end Draft

end CircuitDraft
