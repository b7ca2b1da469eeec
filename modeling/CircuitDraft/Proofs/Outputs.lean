import CircuitDraft.Proofs.CallHistory
import CircuitDraft.Proofs.Frame
import CircuitDraft.Proofs.ScopePartition

/-!
The outputs of a scope are the variables that calls marked in it, and a variable can be marked where
a call has declared it and nowhere else.
-/

namespace CircuitDraft.Draft

variable {K : PrimeField} {draft : Draft K}

/-- The outputs of the scope registered under `id`, or none if there is no such scope. -/
def outputsOf (draft : Draft K) (id : CircuitId) : List Variable :=
  (draft.find? id).elim [] fun scope => scope.outputs.toList

/-- The variable that a step of a history marked as an output of `id`. -/
def markedIn? (id : CircuitId) : Call × Except BuildError (Reply K) → Option Variable
  | (.addOutput scope var, .ok _) => if scope = id then some var else none
  | _ => none

theorem markedIn?_eq_some_iff {id : CircuitId} {step : Call × Except BuildError (Reply K)}
    {var : Variable} :
    markedIn? id step = some var ↔ ∃ reply, step = (.addOutput id var, .ok reply) := by
  constructor
  · intro h
    simp only [markedIn?] at h
    split at h
    · next scope v reply =>
      split at h
      · next hid =>
        obtain rfl := Option.some.inj h
        exact ⟨reply, by rw [hid]⟩
      · cases h
    · cases h
  · rintro ⟨reply, rfl⟩
    exact if_pos rfl

@[simp]
theorem markedIn?_error (id : CircuitId) (call : Call) (cause : BuildError) :
    markedIn? id (call, (.error cause : Except BuildError (Reply K))) = none := by
  rw [Option.eq_none_iff_forall_ne_some]
  intro var hvar
  obtain ⟨reply, heq⟩ := markedIn?_eq_some_iff.mp hvar
  cases heq

theorem outputsOf_of_find? {id : CircuitId} {scope : Scope} (hscope : draft.find? id = some scope) :
    draft.outputsOf id = scope.outputs.toList := by
  rw [outputsOf, hscope]
  rfl

theorem outputsOf_enter (h : draft.registry.Consistent) (entry : Journal.Entry) (id : CircuitId) :
    (draft.enter entry).outputsOf id = draft.outputsOf id := by
  have hfind : (draft.enter entry).find? id = (draft.find? id).map fun scope =>
      if scope.id = entry.scope then scope.record entry.origin.role entry.var else scope :=
    h.find?_update entry.scope (f := fun scope => scope.record entry.origin.role entry.var)
      (fun _ hid => hid) id
  rw [outputsOf, outputsOf, hfind]
  cases draft.find? id with
  | none => rfl
  | some scope =>
      simp only [Option.map_some, Option.elim_some]
      split <;> rfl

theorem outputsOf_enroll (h : draft.registry.Consistent) {id : CircuitId}
    (hfree : draft.registry.contains id = false) (next : Option CircuitId) (other : CircuitId) :
    (draft.enroll id next).outputsOf other = draft.outputsOf other := by
  have hfind : (draft.enroll id next).find? other =
      (draft.find? other).or (if id = other then some (.empty id) else none) :=
    h.find?_append (.empty id) next hfree other
  rw [outputsOf, outputsOf, hfind]
  cases draft.find? other with
  | none =>
      rw [Option.none_or]
      split <;> rfl
  | some scope => rfl

theorem outputsOf_mark (h : draft.registry.Consistent) {id : CircuitId} {scope : Scope}
    (hscope : draft.find? id = some scope) (var : Variable) (other : CircuitId) :
    (draft.mark id var).outputsOf other =
      draft.outputsOf other ++ if id = other then [var] else [] := by
  by_cases hid : id = other
  · subst hid
    rw [if_pos rfl, outputsOf_of_find? (find?_mark_self h var hscope), outputsOf_of_find? hscope]
    exact Array.toList_push
  · rw [if_neg hid, List.append_nil, outputsOf, outputsOf, find?_mark_of_ne h (Ne.symm hid)]

theorem Turn.outputsOf_eq {call : Call} {outcome : Outcome (Draft K) (Reply K)}
    (hturn : draft.Turn call outcome) (h : draft.registry.Consistent) (id : CircuitId) :
    outcome.state.outputsOf id =
      draft.outputsOf id ++ (markedIn? id (call, outcome.answer)).toList := by
  cases hturn with
  | refused _ => simp
  | @declared _ d var hd _ _ =>
      -- A call cannot both declare a variable and mark one.
      have hnone : markedIn? id (call, .ok (.expr (.ofVariable var) : Reply K)) = none := by
        cases call with
        | addOutput other marked => cases hd
        | _ => rfl
      rw [hnone]
      exact (outputsOf_enter h _ id).trans (List.append_nil _).symm
  | registered _ hfree | added _ hfree =>
      exact (outputsOf_enroll h hfree _ id).trans (List.append_nil _).symm
  | present _ _ => exact (List.append_nil _).symm
  | issued hnext =>
      exact (outputsOf_enroll h (h.next_free hnext).2 _ id).trans (List.append_nil _).symm
  | @marked marked var scope hscope _ =>
      rw [outputsOf_mark h hscope]
      simp only [markedIn?]
      split <;> rfl

theorem run_outputsOf (h : draft.registry.Consistent) (calls : List Call) (id : CircuitId) :
    (draft.run calls).outputsOf id =
      draft.outputsOf id ++ (draft.history calls).filterMap (markedIn? id) := by
  induction calls generalizing draft with
  | nil => exact (List.append_nil _).symm
  | cons call rest ih =>
      have hturn := perform_turn h call
      rw [run_cons, ih (hturn.consistent h), hturn.outputsOf_eq h, history_cons, List.append_assoc,
        List.filterMap_cons]
      cases markedIn? id (call, (draft.perform call).answer) <;> rfl

theorem IsNew.outputsOf_eq (hnew : draft.IsNew) (id : CircuitId) : draft.outputsOf id = [] := by
  cases hscope : draft.find? id with
  | none => rw [outputsOf, hscope]; rfl
  | some scope =>
      have hmem := hnew.consistent.mem_of_find? hscope
      obtain ⟨config, rfl⟩ := hnew.exists_config
      obtain rfl := List.mem_singleton.mp hmem
      exact outputsOf_of_find? hscope

/-- A call for the scope `id` was answered with `var`. -/
def HandedOut (start : Draft K) (calls : List Call) (id : CircuitId) (var : Variable) : Prop :=
  ∃ call d, call.declaration? = some d ∧ d.scope = id ∧
    (call, .ok (.expr (.ofVariable var))) ∈ start.history calls

theorem IsNew.mem_vars_iff {start : Draft K} (hnew : start.IsNew) {calls : List Call}
    {id : CircuitId} {scope : Scope} (hscope : (start.run calls).find? id = some scope)
    {var : Variable} : var ∈ scope.vars ↔ start.HandedOut calls id var := by
  have h := hnew.reachable.run calls
  obtain ⟨hmem, rfl⟩ := h.consistent.find?_eq_some_iff.mp hscope
  rw [h.recorded.mem_vars_iff hmem]
  constructor
  · rintro ⟨entry, hentry, rfl, hid⟩
    obtain ⟨call, d, hd, heq, hstep⟩ := (hnew.mem_journal_iff calls).mp hentry
    exact ⟨call, d, hd, (congrArg Journal.Entry.scope heq).trans hid, hstep⟩
  · rintro ⟨call, d, hd, hid, hstep⟩
    exact ⟨d.entry var, (hnew.mem_journal_iff calls).mpr ⟨call, d, hd, rfl, hstep⟩, rfl, hid⟩

theorem Turn.contains_of_isOk {id : CircuitId} {var : Variable}
    {outcome : Outcome (Draft K) (Reply K)} (hturn : draft.Turn (.addOutput id var) outcome)
    (hok : outcome.answer.isOk = true) :
    ∃ scope, draft.find? id = some scope ∧ scope.contains var = true := by
  cases hturn with
  | refused _ => cases hok
  | declared hd _ _ => cases hd
  | @marked _ _ scope hscope howned => exact ⟨scope, hscope, howned⟩

theorem IsNew.addOutput_isOk_iff {start : Draft K} (hnew : start.IsNew) (calls : List Call)
    (id : CircuitId) (var : Variable) :
    ((start.run calls).perform (.addOutput id var)).answer.isOk = true ↔
      (start.run calls).registry.contains id = true ∧ start.HandedOut calls id var := by
  have h := hnew.reachable.run calls
  constructor
  · intro hok
    obtain ⟨scope, hscope, howned⟩ := (perform_turn h.consistent _).contains_of_isOk hok
    have hmem := h.consistent.mem_of_find? hscope
    have hhanded := (hnew.mem_vars_iff hscope).mp ((h.recorded.contains_iff hmem).mp howned)
    exact ⟨contains_of_find? h.consistent hscope, hhanded⟩
  · rintro ⟨hknown, hhanded⟩
    obtain ⟨scope, hscope⟩ := exists_scope h.consistent hknown
    have hmem := h.consistent.mem_of_find? hscope
    have howned := (h.recorded.contains_iff hmem).mpr ((hnew.mem_vars_iff hscope).mpr hhanded)
    rw [(perform_addOutput h.consistent hscope howned).1]
    rfl

theorem HandedOut.append {start : Draft K} {calls : List Call} {id : CircuitId} {var : Variable}
    (h : start.HandedOut calls id var) (later : List Call) :
    start.HandedOut (calls ++ later) id var := by
  obtain ⟨call, d, hd, hid, hstep⟩ := h
  refine ⟨call, d, hd, hid, ?_⟩
  rw [history_append]
  exact List.mem_append_left _ hstep

theorem IsNew.outputs_eq {start : Draft K} (hnew : start.IsNew) {calls : List Call}
    {id : CircuitId} {scope : Scope} (hscope : (start.run calls).find? id = some scope) :
    scope.outputs.toList = (start.history calls).filterMap (markedIn? id) := by
  rw [← outputsOf_of_find? hscope, run_outputsOf hnew.consistent, hnew.outputsOf_eq,
    List.nil_append]

theorem IsNew.handedOut_of_mem_outputs {start : Draft K} (hnew : start.IsNew) {calls : List Call}
    {id : CircuitId} {scope : Scope} (hscope : (start.run calls).find? id = some scope)
    {var : Variable} (hvar : var ∈ scope.outputs) : start.HandedOut calls id var := by
  rw [← Array.mem_toList_iff, hnew.outputs_eq hscope, List.mem_filterMap] at hvar
  obtain ⟨step, hstep, hmarked⟩ := hvar
  obtain ⟨reply, rfl⟩ := markedIn?_eq_some_iff.mp hmarked
  obtain ⟨earlier, later, rfl, hanswer⟩ := mem_history_iff.mp hstep
  have hok : ((start.run earlier).perform (.addOutput id var)).answer.isOk = true := by
    rw [hanswer]
    rfl
  exact ((hnew.addOutput_isOk_iff earlier id var).mp hok).2.append _

/-- Each scope has the outputs that calls marked in it, in the order of the calls and with
repetitions. A variable can be marked in a scope if a call for that scope was answered with it, and
only then, so every output has been minted for the scope that it is an output of. -/
structure MarksOwnVariables (start : Draft K) : Prop where
  outputs : ∀ calls id scope, (start.run calls).find? id = some scope →
    scope.outputs.toList = (start.history calls).filterMap (markedIn? id)
  isOk_iff : ∀ calls id var,
    ((start.run calls).perform (.addOutput id var)).answer.isOk = true ↔
      (start.run calls).registry.contains id = true ∧ start.HandedOut calls id var
  ne_one : ∀ calls id scope, (start.run calls).find? id = some scope →
    ∀ var ∈ scope.outputs, var ≠ .one
  minted : ∀ calls id scope, (start.run calls).find? id = some scope →
    ∀ var ∈ scope.outputs, (start.run calls).Minted var
  owner : ∀ calls id scope, (start.run calls).find? id = some scope → ∀ var ∈ scope.outputs,
    ∀ other scope', (start.run calls).find? other = some scope' →
      (var ∈ scope'.vars ↔ other = id)

theorem IsNew.marksOwnVariables {start : Draft K} (hnew : start.IsNew) :
    start.MarksOwnVariables where
  outputs _ _ _ := hnew.outputs_eq
  isOk_iff := hnew.addOutput_isOk_iff
  ne_one := by
    intro calls id scope hscope var hvar
    obtain ⟨_, _, _, _, hstep⟩ := hnew.handedOut_of_mem_outputs hscope hvar
    exact ne_one_of_mem_history hnew.reachable hstep
  minted := by
    intro calls id scope hscope var hvar
    have h := hnew.reachable.run calls
    have hmem := h.consistent.mem_of_find? hscope
    exact h.recorded.minted_of_mem_vars hmem
      ((hnew.mem_vars_iff hscope).mpr (hnew.handedOut_of_mem_outputs hscope hvar))
  owner := by
    intro calls id scope hscope var hvar other scope' hscope'
    have h := hnew.reachable.run calls
    have hown := (hnew.mem_vars_iff hscope).mpr (hnew.handedOut_of_mem_outputs hscope hvar)
    constructor
    · intro hvar'
      obtain ⟨hmem, rfl⟩ := h.consistent.find?_eq_some_iff.mp hscope
      obtain ⟨hmem', rfl⟩ := h.consistent.find?_eq_some_iff.mp hscope'
      exact h.recorded.id_eq_of_mem_vars hmem' hmem hvar' hown
    · rintro rfl
      rw [hscope] at hscope'
      exact Option.some.inj hscope' ▸ hown

theorem marksOwnVariables_two_scopes :
    (empty {} : Draft .babyBear).IsNew ∧ (empty {} : Draft .babyBear).MarksOwnVariables ∧
      ((empty {} : Draft .babyBear).run
          [.register ⟨7⟩, .secretInput (.plain "s"), .circuitInput ⟨7⟩ (.plain "x"),
            .circuitInternal ⟨7⟩ "t", .addOutput ⟨7⟩ ⟨3⟩, .addOutput ⟨7⟩ ⟨1⟩, .addOutput ⟨7⟩ .one,
            .addOutput ⟨7⟩ ⟨2⟩, .addOutput ⟨7⟩ ⟨3⟩, .addOutput .root ⟨1⟩,
            .addOutput ⟨8⟩ ⟨2⟩]).registry.toList.map Scope.outputs =
        [#[⟨1⟩], #[⟨3⟩, ⟨2⟩, ⟨3⟩]] :=
  ⟨isNew_empty {}, (isNew_empty {}).marksOwnVariables, by decide +kernel⟩

end CircuitDraft.Draft
