import CircuitDraft.Description
import CircuitDraft.Proofs.CallHistory
import CircuitDraft.Proofs.ScopePartition

/-!
What a finished description says of a circuit is what the calls on the draft declared.
-/

namespace CircuitDraft

/-- A call that asks for an input of the circuit as a whole. -/
def Call.isRootInput : Call → Bool
  | .secretInput _ => true
  | .publicInput _ => true
  | .circuitInput id _ => id = .root
  | _ => false

theorem Call.isRootInput_of_declaration? {call : Call} {d : Declaration}
    (hd : call.declaration? = some d) :
    (decide (d.origin.role = .input) && decide (d.scope = .root)) = call.isRootInput := by
  cases call with
  | register _ | registerNext | getOrRegister _ | addOutput _ _ => cases hd
  | _ =>
      cases hd
      rfl

theorem Call.isRootInput_of_none {call : Call} (hd : call.declaration? = none) :
    call.isRootInput = false := by
  cases call with
  | register _ | registerNext | getOrRegister _ | addOutput _ _ => rfl
  | _ => cases hd

namespace Draft

variable {K : PrimeField} {draft : Draft K}

/-- The variable that a step of a history declared public. -/
def publicMade? : Call × Except BuildError (Reply K) → Option Variable
  | (.publicInput _, answer) => varOf? answer
  | _ => none

theorem publicMade?_eq_some_iff {step : Call × Except BuildError (Reply K)} {var : Variable} :
    publicMade? step = some var ↔
      (∃ leaf, step = (.publicInput leaf, .ok (.expr (.ofVariable var)))) ∧ var ≠ .one := by
  obtain ⟨call, answer⟩ := step
  cases call with
  | publicInput leaf =>
      rw [publicMade?, varOf?_eq_some_iff]
      simp
  | _ => simp [publicMade?]

theorem publicMade?_eq (step : Call × Except BuildError (Reply K)) :
    ((entryMade? step).filter fun entry => entry.origin = .publicInput).map Journal.Entry.var =
      publicMade? step := by
  obtain ⟨call, answer⟩ := step
  cases call with
  | secretInput _ | publicInput _ | internal _ | circuitInput _ _ | circuitInternal _ _ =>
      simp only [entryMade?, publicMade?, Call.declaration?, Option.bind_some]
      cases varOf? answer <;> rfl
  | register _ | registerNext | getOrRegister _ | addOutput _ _ => rfl

theorem IsNew.publicInputs_eq {start : Draft K} (hnew : start.IsNew) (calls : List Call) :
    (start.run calls).publicInputs.vars.toList =
      (start.history calls).filterMap publicMade? := by
  have h := (hnew.reachable.run calls).recorded
  rw [← h.publicInputs, hnew.run_journal, List.filter_filterMap, List.map_filterMap]
  exact List.filterMap_congr fun step _ => publicMade?_eq step

theorem Turn.config_eq {call : Call} {outcome : Outcome (Draft K) (Reply K)}
    (hturn : draft.Turn call outcome) : outcome.state.config = draft.config := by
  cases hturn <;> rfl

theorem run_config (h : draft.registry.Consistent) (calls : List Call) :
    (draft.run calls).config = draft.config :=
  run_induction (P := fun after => after.config = draft.config)
    (fun _ _ _ _ hturn hconfig => hturn.config_eq.trans hconfig) h rfl calls

namespace Recorded

theorem exists_public_entry (h : draft.Recorded) {var : Variable}
    (hvar : var ∈ draft.publicInputs.vars) :
    ∃ entry ∈ draft.journal.toList, entry.var = var ∧ entry.scope = .root := by
  rw [← Array.mem_toList_iff, ← h.publicInputs, List.mem_map] at hvar
  obtain ⟨entry, hentry, hvar⟩ := hvar
  obtain ⟨hmem, horigin⟩ := List.mem_filter.mp hentry
  exact ⟨entry, hmem, hvar, h.rootOnly entry hmem (.inr (of_decide_eq_true horigin))⟩

theorem root_contains_public (h : draft.Recorded) (hconsistent : draft.registry.Consistent)
    {var : Variable} (hvar : var ∈ draft.publicInputs.vars) :
    draft.root.contains var = true := by
  have hroot := hconsistent.mem_of_find? hconsistent.find?_root
  obtain ⟨entry, hentry, hentryVar, hscope⟩ := h.exists_public_entry hvar
  apply (h.contains_iff hroot).mpr
  exact (h.mem_vars_iff hroot).mpr
    ⟨entry, hentry, hentryVar, hscope.trans hconsistent.id_root.symm⟩

theorem inputCount_root (h : draft.Recorded) (hconsistent : draft.registry.Consistent) :
    draft.root.inputCount = draft.journal.toList.countP fun entry =>
      decide (entry.origin.role = .input) && decide (entry.scope = .root) := by
  have hroot := hconsistent.mem_of_find? hconsistent.find?_root
  rw [root, ← (h.scopes _ hroot).inputCount, hconsistent.id_root, Journal.entriesOf,
    List.countP_filter]

end Recorded

/-- The description counts and lists what the calls declared, refused calls left out, and holds the
scopes, the configuration and the field of the draft that it was made from. -/
structure HandsOff (start : Draft K) (calls : List Call) (description : Description K) : Prop where
  hasPublicInput_iff : ∀ var, description.hasPublicInput var = true ↔
    ∃ leaf, (Call.publicInput leaf, .ok (.expr (.ofVariable var))) ∈ start.history calls
  publicInputs : description.publicInputs.toList = (start.history calls).filterMap publicMade?
  ascending : description.publicInputs.toList.Pairwise (· < ·)
  root_contains : ∀ var ∈ description.publicInputs, description.root.contains var = true
  inputCount : description.inputCount =
    (start.history calls).countP fun step => step.1.isRootInput && step.2.isOk
  varCount : description.varCount =
    (start.history calls).countP fun step => step.1.declaration?.isSome && step.2.isOk
  find? : ∀ id, description.find? id = (start.run calls).find? id
  ids : description.registry.ids = (start.run calls).registry.ids
  nextReserved : description.registry.nextReserved = (start.run calls).registry.nextReserved
  config : description.config = (start.run calls).config
  modulus : description.modulus = (start.run calls).modulus
  asRequested : ∀ requested config, (create requested config).1 = .ok start →
    description.modulus = requested ∧ description.config = config

theorem IsNew.handsOff {start : Draft K} (hnew : start.IsNew) (calls : List Call) :
    start.HandsOff calls (start.run calls).finish.1 where
  hasPublicInput_iff := by
    intro var
    rw [Description.hasPublicInput, Array.contains_iff_mem, ← Array.mem_toList_iff]
    -- The description lists the public inputs of the draft.
    change var ∈ (start.run calls).publicInputs.vars.toList ↔ _
    rw [hnew.publicInputs_eq, List.mem_filterMap]
    constructor
    · rintro ⟨step, hstep, hpublic⟩
      obtain ⟨⟨leaf, rfl⟩, -⟩ := publicMade?_eq_some_iff.mp hpublic
      exact ⟨leaf, hstep⟩
    · rintro ⟨leaf, hstep⟩
      have hone := ne_one_of_mem_history hnew.reachable hstep
      exact ⟨_, hstep, publicMade?_eq_some_iff.mpr ⟨⟨leaf, rfl⟩, hone⟩⟩
  publicInputs := hnew.publicInputs_eq calls
  ascending := by
    have h := (hnew.reachable.run calls).recorded
    change (start.run calls).publicInputs.vars.toList.Pairwise (· < ·)
    rw [← h.publicInputs]
    exact h.ascending_filter _
  root_contains := by
    intro var hvar
    have h := hnew.reachable.run calls
    exact h.recorded.root_contains_public h.consistent hvar
  inputCount := by
    have h := hnew.reachable.run calls
    refine (h.recorded.inputCount_root h.consistent).trans ?_
    exact hnew.countP_journal calls _ Call.isRootInput
      (fun _ _ _ => Call.isRootInput_of_declaration?) fun _ => Call.isRootInput_of_none
  varCount := by
    have h := hnew.reachable.run calls
    refine h.recorded.length_journal.symm.trans ?_
    rw [← List.countP_true]
    refine hnew.countP_journal calls _ (fun call => call.declaration?.isSome)
      (fun _ _ _ hd => ?_) fun _ hd => ?_
    · rw [hd]
      rfl
    · rw [hd]
      rfl
  find? _ := rfl
  ids := rfl
  nextReserved := rfl
  config := rfl
  modulus := rfl
  asRequested := by
    intro requested config hcreate
    obtain ⟨rfl, rfl⟩ := create_eq_ok_iff.mp hcreate
    exact ⟨rfl, run_config hnew.consistent calls⟩

/-- Calls that declare variables in two scopes. Two of them are refused. -/
def twoScopes : List Call :=
  [.publicInput (.plain "p"), .circuitInput ⟨7⟩ (.plain "lost"), .register ⟨7⟩,
    .circuitInput ⟨7⟩ (.plain "x"), .circuitInput .root (.plain "r"), .internal "m",
    .addOutput .root ⟨2⟩, .publicInput (.member "q" .secretValue)]

theorem handsOff_twoScopes :
    (empty { expectedVars := 4 } : Draft .koalaBear).IsNew ∧
      (empty { expectedVars := 4 } : Draft .koalaBear).HandsOff twoScopes
        ((empty { expectedVars := 4 }).run twoScopes).finish.1 ∧
      ((empty { expectedVars := 4 } : Draft .koalaBear).run twoScopes).finish.1.publicInputs =
        #[⟨1⟩, ⟨5⟩] ∧
      ((empty { expectedVars := 4 } : Draft .koalaBear).run twoScopes).finish.1.inputCount = 3 ∧
      ((empty { expectedVars := 4 } : Draft .koalaBear).run twoScopes).finish.1.varCount = 5 :=
  ⟨isNew_empty _, (isNew_empty _).handsOff _, by decide +kernel, by decide +kernel,
    by decide +kernel⟩

end Draft

end CircuitDraft
