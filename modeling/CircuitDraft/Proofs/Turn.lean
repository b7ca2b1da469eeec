import CircuitDraft.Draft.Call
import CircuitDraft.Proofs.RegistryOutcomes

/-!
What one call can do to a draft. The five declaring calls are one kind of call here, and so are the
two that ask for a key.
-/

namespace CircuitDraft

/-- What a declaring call asks for. -/
structure Declaration where
  origin : Origin
  label : String
  scope : CircuitId
deriving DecidableEq

/-- The record of the declaration once a variable has been minted for it. -/
def Declaration.entry (d : Declaration) (var : Variable) : Journal.Entry :=
  ⟨var, d.origin, d.label, d.scope⟩

namespace Call

def declaration? : Call → Option Declaration
  | .secretInput leaf => some ⟨.secretInput, leaf.name, .root⟩
  | .publicInput leaf => some ⟨.publicInput, leaf.name, .root⟩
  | .internal label => some ⟨.internal, label, .root⟩
  | .circuitInput id leaf => some ⟨.circuitInput, leaf.name, id⟩
  | .circuitInternal id label => some ⟨.internal, label, id⟩
  | .register _ => none
  | .registerNext => none
  | .getOrRegister _ => none
  | .addOutput _ _ => none

/-- The key under which a call asks for a sub-circuit. -/
def key? : Call → Option CircuitId
  | .register id => some id
  | .getOrRegister id => some id
  | _ => none

end Call

namespace Draft

variable {K : PrimeField}

/-- Take in a declaration for which a variable has been minted. -/
def enter (draft : Draft K) (entry : Journal.Entry) : Draft K :=
  { draft with
    counter := ⟨entry.var.succ?⟩
    registry := draft.registry.update entry.scope fun scope =>
      scope.record entry.origin.role entry.var
    publicInputs :=
      if entry.origin = .publicInput then draft.publicInputs.push entry.var
      else draft.publicInputs
    journal := draft.journal.push entry }

/-- What an observer is told of a declaration. -/
def entryEvents (draft : Draft K) (entry : Journal.Entry) : List Event :=
  .declared entry ::
    if entry.origin = .publicInput then [.taggedPublic entry.var draft.publicInputs.count] else []

def enroll (draft : Draft K) (id : CircuitId) (next : Option CircuitId) : Draft K :=
  { draft with registry := draft.registry.enroll id next }

def mark (draft : Draft K) (id : CircuitId) (var : Variable) : Draft K :=
  { draft with registry := draft.registry.update id fun scope => scope.mark var }

/-- The reasons for which a draft refuses a call, with what an observer is told of it. -/
inductive Refusal (draft : Draft K) : Call → BuildError → List Event → Prop
  | unknown {call : Call} {d : Declaration} (hd : call.declaration? = some d)
      (hfree : draft.registry.contains d.scope = false) :
      Refusal draft call (.unknownCircuit d.scope) []
  | exhausted {call : Call} {d : Declaration} (hd : call.declaration? = some d)
      (hknown : draft.registry.contains d.scope = true) (hnext : draft.counter.next = none) :
      Refusal draft call .variablesExhausted []
  | reservedKey {id : CircuitId} (hreserved : id.isReserved = true) :
      Refusal draft (.register id) (.identityReserved id) [.rejectedReserved id]
  | reservedLookup {id : CircuitId} (hreserved : id.isReserved = true) :
      Refusal draft (.getOrRegister id) (.identityReserved id) []
  | taken {id : CircuitId} (hkey : id.isReserved = false)
      (hknown : draft.registry.contains id = true) :
      Refusal draft (.register id) (.identityTaken id) [.rejectedDuplicate id]
  | identitiesExhausted (hnext : draft.registry.nextReserved = none) :
      Refusal draft .registerNext .identitiesExhausted []
  | unknownOutput {id : CircuitId} {var : Variable} (hnone : draft.find? id = none) :
      Refusal draft (.addOutput id var) (.unknownCircuit id) []
  | foreignOutput {id : CircuitId} {var : Variable} {scope : Scope}
      (hscope : draft.find? id = some scope) (hforeign : scope.contains var = false) :
      Refusal draft (.addOutput id var) (.foreignVariable var id) []

/-- The ways in which a call on a draft can turn out. -/
inductive Turn (draft : Draft K) : Call → Outcome (Draft K) (Reply K) → Prop
  | refused {call : Call} {cause : BuildError} {events : List Event}
      (hrefusal : draft.Refusal call cause events) :
      Turn draft call ⟨.error cause, draft, events⟩
  | declared {call : Call} {d : Declaration} {var : Variable} (hd : call.declaration? = some d)
      (hknown : draft.registry.contains d.scope = true) (hnext : draft.counter.next = some var) :
      Turn draft call
        ⟨.ok (.expr (.ofVariable var)), draft.enter (d.entry var), draft.entryEvents (d.entry var)⟩
  | registered {id : CircuitId} (hkey : id.isReserved = false)
      (hfree : draft.registry.contains id = false) :
      Turn draft (.register id)
        ⟨.ok (.circuit id), draft.enroll id draft.registry.nextReserved,
          [.registered id (draft.registry.size + 1)]⟩
  | added {id : CircuitId} (hkey : id.isReserved = false)
      (hfree : draft.registry.contains id = false) :
      Turn draft (.getOrRegister id)
        ⟨.ok (.lookup (.added id)), draft.enroll id draft.registry.nextReserved,
          [.registered id (draft.registry.size + 1)]⟩
  | present {id : CircuitId} (hkey : id.isReserved = false)
      (hknown : draft.registry.contains id = true) :
      Turn draft (.getOrRegister id) ⟨.ok (.lookup (.present id)), draft, [.reused id]⟩
  | issued {id : CircuitId} (hnext : draft.registry.nextReserved = some id) :
      Turn draft .registerNext
        ⟨.ok (.circuit id), draft.enroll id id.succ?, [.registered id (draft.registry.size + 1)]⟩
  | marked {id : CircuitId} {var : Variable} {scope : Scope}
      (hscope : draft.find? id = some scope) (howned : scope.contains var = true) :
      Turn draft (.addOutput id var) ⟨.ok .marked, draft.mark id var, []⟩

variable {draft : Draft K}

theorem key?_eq_none {call : Call} {d : Declaration} (hd : call.declaration? = some d) :
    call.key? = none := by
  cases call with
  | register id | getOrRegister id => cases hd
  | _ => rfl

theorem ids_enter (h : draft.registry.Consistent) (entry : Journal.Entry) :
    (draft.enter entry).registry.ids = draft.registry.ids :=
  h.ids_update entry.scope fun _ hid => hid

theorem ids_mark (h : draft.registry.Consistent) (id : CircuitId) (var : Variable) :
    (draft.mark id var).registry.ids = draft.registry.ids :=
  h.ids_update id fun _ hid => hid

theorem exists_scope (h : draft.registry.Consistent) {id : CircuitId}
    (hknown : draft.registry.contains id = true) :
    ∃ scope, draft.registry.find? id = some scope := by
  rw [h.contains_eq_isSome] at hknown
  exact Option.isSome_iff_exists.mp hknown

/-- The direct way to the root scope and the way by the index agree. -/
theorem declareRoot_eq_declareIn (h : draft.registry.Consistent) (origin : Origin)
    (label : String) : draft.declareRoot origin label = draft.declareIn .root origin label := by
  rw [declareRoot, declareIn, h.declareRoot_eq]

theorem turn_of_declareIn (h : draft.registry.Consistent) {call : Call} {d : Declaration}
    (hd : call.declaration? = some d) (horigin : d.origin ≠ .publicInput) :
    draft.Turn call (((draft.declareIn d.scope d.origin d.label).map .ofVariable).map .expr) := by
  rw [declareIn]
  cases hknown : draft.registry.contains d.scope with
  | false =>
      rw [Registry.declare_unknown (h.find?_eq_none_iff.mpr hknown)]
      exact .refused (.unknown hd hknown)
  | true =>
      obtain ⟨scope, hscope⟩ := exists_scope h hknown
      cases hnext : draft.counter.next with
      | none =>
          rw [Registry.declare_exhausted hscope hnext]
          exact .refused (.exhausted hd hknown hnext)
      | some var =>
          rw [Registry.declare_minted hscope hnext]
          have hturn := Turn.declared hd hknown hnext
          simp only [enter, entryEvents, Declaration.entry, horigin, if_false] at hturn
          exact hturn

theorem turn_publicInput (h : draft.registry.Consistent) (leaf : Leaf) :
    draft.Turn (.publicInput leaf) ((draft.publicInput leaf).map .expr) := by
  rw [publicInput, declareRoot_eq_declareIn h, declareIn]
  have hd : (Call.publicInput leaf).declaration? = some ⟨.publicInput, leaf.name, .root⟩ := rfl
  have hknown : draft.registry.contains .root = true := h.contains_iff.mpr h.root_mem_ids
  obtain ⟨scope, hscope⟩ := exists_scope h hknown
  cases hnext : draft.counter.next with
  | none =>
      rw [Registry.declare_exhausted hscope hnext]
      exact .refused (.exhausted hd hknown hnext)
  | some var =>
      rw [Registry.declare_minted hscope hnext]
      exact .declared hd hknown hnext

theorem turn_register (draft : Draft K) (id : CircuitId) :
    draft.Turn (.register id) ((draft.register id).map .circuit) := by
  rw [register]
  cases hreserved : id.isReserved with
  | true =>
      rw [Registry.register_reserved hreserved]
      exact .refused (.reservedKey hreserved)
  | false =>
      cases hknown : draft.registry.contains id with
      | true =>
          rw [Registry.register_taken (Scope.id_empty id) hreserved hknown]
          exact .refused (.taken hreserved hknown)
      | false =>
          rw [Registry.register_free (Scope.id_empty id) hreserved hknown]
          exact .registered hreserved hknown

theorem turn_getOrRegister (draft : Draft K) (id : CircuitId) :
    draft.Turn (.getOrRegister id) ((draft.getOrRegister id).map .lookup) := by
  rw [getOrRegister]
  cases hreserved : id.isReserved with
  | true => exact .refused (.reservedLookup hreserved)
  | false =>
      rw [if_neg Bool.false_ne_true]
      cases hknown : draft.registry.contains id with
      | true => exact .present hreserved hknown
      | false =>
          rw [if_neg Bool.false_ne_true, register,
            Registry.register_free (Scope.id_empty id) hreserved hknown]
          exact .added hreserved hknown

theorem turn_registerNext (h : draft.registry.Consistent) :
    draft.Turn .registerNext (draft.registerNext.map .circuit) := by
  rw [registerNext]
  cases hnext : draft.registry.nextReserved with
  | none =>
      rw [Registry.registerNext_spent hnext]
      exact .refused (.identitiesExhausted hnext)
  | some id =>
      rw [h.registerNext_issued hnext]
      exact .issued hnext

theorem turn_addOutput (h : draft.registry.Consistent) (id : CircuitId) (var : Variable) :
    draft.Turn (.addOutput id var) ((draft.addOutput id var).map fun _ => .marked) := by
  rw [addOutput, Registry.addOutput]
  cases hscope : draft.registry.find? id with
  | none => exact .refused (.unknownOutput hscope)
  | some scope =>
      obtain rfl := h.id_of_find? hscope
      simp only [Scope.addOutput]
      cases howned : scope.contains var with
      | false => exact .refused (.foreignOutput hscope howned)
      | true =>
          have hset := Registry.set_of_find? hscope fun scope => scope.mark var
          have hturn : draft.Turn (.addOutput scope.id var) _ := .marked hscope howned
          rw [mark, ← hset] at hturn
          exact hturn

/-- One call on a draft whose registry is consistent turns out in one of the ways above. -/
theorem perform_turn (h : draft.registry.Consistent) (call : Call) :
    draft.Turn call (draft.perform call) := by
  cases call with
  | secretInput leaf =>
      rw [perform, secretInput, declareRoot_eq_declareIn h]
      exact turn_of_declareIn (d := ⟨.secretInput, leaf.name, .root⟩) h rfl nofun
  | publicInput leaf => exact turn_publicInput h leaf
  | internal label =>
      rw [perform, internal, declareRoot_eq_declareIn h]
      exact turn_of_declareIn (d := ⟨.internal, label, .root⟩) h rfl nofun
  | circuitInput id leaf =>
      exact turn_of_declareIn (d := ⟨.circuitInput, leaf.name, id⟩) h rfl nofun
  | circuitInternal id label =>
      exact turn_of_declareIn (d := ⟨.internal, label, id⟩) h rfl nofun
  | register id => exact turn_register draft id
  | registerNext => exact turn_registerNext h
  | getOrRegister id => exact turn_getOrRegister draft id
  | addOutput id var => exact turn_addOutput h id var

theorem Refusal.unique {call : Call} {cause cause' : BuildError} {events events' : List Event}
    (h : draft.Refusal call cause events) (h' : draft.Refusal call cause' events') :
    cause = cause' ∧ events = events' := by
  cases h <;> cases h' <;> simp_all [Call.declaration?]

theorem Turn.unique {call : Call} {outcome outcome' : Outcome (Draft K) (Reply K)}
    (h : draft.Turn call outcome) (h' : draft.Turn call outcome') : outcome = outcome' := by
  -- Where the constructors differ, the guard of one contradicts the guard of the other.
  cases h with
  | refused hrefusal =>
      cases h' with
      | refused hrefusal' =>
          obtain ⟨rfl, rfl⟩ := hrefusal.unique hrefusal'
          rfl
      | _ => cases hrefusal <;> simp_all [Call.declaration?]
  | _ =>
      cases h' with
      | refused hrefusal => cases hrefusal <;> simp_all [Call.declaration?]
      | _ => simp_all [Call.declaration?]

theorem perform_eq_iff (h : draft.registry.Consistent) {call : Call}
    {outcome : Outcome (Draft K) (Reply K)} :
    draft.perform call = outcome ↔ draft.Turn call outcome := by
  constructor
  · rintro rfl
    exact perform_turn h call
  · exact (perform_turn h call).unique

end Draft

end CircuitDraft
