import CircuitDraft.Proofs.Deduplication
import CircuitDraft.Proofs.Numbering
import CircuitDraft.Proofs.ReservedIdentities
import CircuitDraft.Proofs.ScopePartition

/-!
Why a draft refuses a call: for each call the reasons that there are, which of them comes first, and
that there is no other. Whatever a call relies on without a check is always so.
-/

namespace CircuitDraft

/-- The last identity that can be handed out. -/
def CircuitId.last : CircuitId :=
  ⟨0xFFFFFFFFFFFFFFFF⟩

namespace Draft

variable {K : PrimeField} {draft start : Draft K} {call : Call} {cause : BuildError}

theorem Turn.refusal_of_error {outcome : Outcome (Draft K) (Reply K)}
    (hturn : draft.Turn call outcome) (hanswer : outcome.answer = .error cause) :
    ∃ events, draft.Refusal call cause events := by
  cases hturn with
  | refused hrefusal =>
      cases hanswer
      exact ⟨_, hrefusal⟩
  | _ => cases hanswer

theorem answer_eq_error_iff (h : draft.registry.Consistent) :
    (draft.perform call).answer = .error cause ↔ ∃ events, draft.Refusal call cause events := by
  constructor
  · exact (perform_turn h call).refusal_of_error
  · rintro ⟨events, hrefusal⟩
    rw [(perform_eq_iff h).mpr (.refused hrefusal)]

theorem Recorded.next_eq_none_iff (h : draft.Recorded) :
    draft.counter.next = none ↔ draft.varCount = UInt32.size - 1 := by
  constructor
  · exact varCount_of_exhausted
  · intro hcount
    cases hnext : draft.counter.next with
    | none => rfl
    | some var =>
        have hvar : draft.varCount + 1 = var.number.toNat := Counter.count_of_next h.started hnext
        have hlt := var.number.toNat_lt_size
        omega

/-- A declaring call is refused if its scope is not registered, whether or not numbers are left, and
otherwise if no number is left. -/
theorem Reachable.declaration_error_iff (h : draft.Reachable) {d : Declaration}
    (hd : call.declaration? = some d) :
    (draft.perform call).answer = .error cause ↔
      cause = .unknownCircuit d.scope ∧ d.scope ∉ draft.registry.ids ∨
        cause = .variablesExhausted ∧ d.scope ∈ draft.registry.ids ∧
          draft.varCount = UInt32.size - 1 := by
  rw [answer_eq_error_iff h.consistent]
  constructor
  · rintro ⟨events, hrefusal⟩
    cases hrefusal with
    | unknown hd' hfree =>
        obtain rfl := Option.some.inj (hd.symm.trans hd')
        exact .inl ⟨rfl, h.consistent.contains_eq_false_iff.mp hfree⟩
    | exhausted hd' hknown hnext =>
        obtain rfl := Option.some.inj (hd.symm.trans hd')
        exact .inr ⟨rfl, h.consistent.contains_iff.mp hknown, h.recorded.next_eq_none_iff.mp hnext⟩
    | _ => cases hd
  · rintro (⟨rfl, hfree⟩ | ⟨rfl, hknown, hcount⟩)
    · exact ⟨_, .unknown hd (h.consistent.contains_eq_false_iff.mpr hfree)⟩
    · exact ⟨_, .exhausted hd (h.consistent.contains_iff.mpr hknown)
        (h.recorded.next_eq_none_iff.mpr hcount)⟩

/-- The root scope is registered from the start. -/
theorem Reachable.rootDeclaration_error_iff (h : draft.Reachable) {d : Declaration}
    (hd : call.declaration? = some d) (hroot : d.scope = .root) :
    (draft.perform call).answer = .error cause ↔
      cause = .variablesExhausted ∧ draft.varCount = UInt32.size - 1 := by
  have hmem : d.scope ∈ draft.registry.ids := hroot ▸ h.consistent.root_mem_ids
  rw [h.declaration_error_iff hd]
  simp only [hmem, not_true_eq_false, and_false, false_or, true_and]

theorem Reachable.register_error_iff (h : draft.Reachable) {id : CircuitId} :
    (draft.perform (.register id)).answer = .error cause ↔
      cause = .identityReserved id ∧ id.isReserved = true ∨
        cause = .identityTaken id ∧ id.isReserved = false ∧ id ∈ draft.registry.ids := by
  rw [answer_eq_error_iff h.consistent]
  constructor
  · rintro ⟨events, hrefusal⟩
    cases hrefusal with
    | unknown hd _ | exhausted hd _ _ => cases hd
    | reservedKey hreserved => exact .inl ⟨rfl, hreserved⟩
    | taken hkey hknown => exact .inr ⟨rfl, hkey, h.consistent.contains_iff.mp hknown⟩
  · rintro (⟨rfl, hreserved⟩ | ⟨rfl, hkey, hknown⟩)
    · exact ⟨_, .reservedKey hreserved⟩
    · exact ⟨_, .taken hkey (h.consistent.contains_iff.mpr hknown)⟩

theorem Reachable.getOrRegister_error_iff (h : draft.Reachable) {id : CircuitId} :
    (draft.perform (.getOrRegister id)).answer = .error cause ↔
      cause = .identityReserved id ∧ id.isReserved = true := by
  rw [answer_eq_error_iff h.consistent]
  constructor
  · rintro ⟨events, hrefusal⟩
    cases hrefusal with
    | unknown hd _ | exhausted hd _ _ => cases hd
    | reservedLookup hreserved => exact ⟨rfl, hreserved⟩
  · rintro ⟨rfl, hreserved⟩
    exact ⟨_, .reservedLookup hreserved⟩

theorem registerNext_error_iff (h : draft.registry.Consistent) :
    (draft.perform .registerNext).answer = .error cause ↔
      cause = .identitiesExhausted ∧ draft.registry.nextReserved = none := by
  rw [answer_eq_error_iff h]
  constructor
  · rintro ⟨events, hrefusal⟩
    cases hrefusal with
    | unknown hd _ | exhausted hd _ _ => cases hd
    | identitiesExhausted hnext => exact ⟨rfl, hnext⟩
  · rintro ⟨rfl, hnext⟩
    exact ⟨_, .identitiesExhausted hnext⟩

theorem Reachable.addOutput_error_iff (h : draft.Reachable) {id : CircuitId} {var : Variable} :
    (draft.perform (.addOutput id var)).answer = .error cause ↔
      cause = .unknownCircuit id ∧ id ∉ draft.registry.ids ∨
        cause = .foreignVariable var id ∧
          ∃ scope, draft.find? id = some scope ∧ var ∉ scope.vars := by
  have hnone : draft.find? id = none ↔ id ∉ draft.registry.ids :=
    h.consistent.find?_eq_none_iff.trans h.consistent.contains_eq_false_iff
  have hforeign : ∀ scope, draft.find? id = some scope →
      (scope.contains var = false ↔ var ∉ scope.vars) := by
    intro scope hscope
    rw [← Bool.not_eq_true, h.recorded.contains_iff (h.consistent.mem_of_find? hscope)]
  rw [answer_eq_error_iff h.consistent]
  constructor
  · rintro ⟨events, hrefusal⟩
    cases hrefusal with
    | unknown hd _ | exhausted hd _ _ => cases hd
    | unknownOutput hunknown => exact .inl ⟨rfl, hnone.mp hunknown⟩
    | foreignOutput hscope hvar => exact .inr ⟨rfl, _, hscope, (hforeign _ hscope).mp hvar⟩
  · rintro (⟨rfl, hunknown⟩ | ⟨rfl, scope, hscope, hvar⟩)
    · exact ⟨_, .unknownOutput (hnone.mpr hunknown)⟩
    · exact ⟨_, .foreignOutput hscope ((hforeign scope hscope).mpr hvar)⟩

theorem answers_eq_map_history (draft : Draft K) (calls : List Call) :
    draft.answers calls = (draft.history calls).map Prod.snd := by
  rw [history, List.map_snd_zip]
  rw [answers, List.length_map, length_outcomes]

theorem Turn.issued_of_createdBy {outcome : Outcome (Draft K) (Reply K)}
    (hturn : draft.Turn call outcome) {id : CircuitId} (hreserved : id.isReserved = true)
    (hcreated : createdBy outcome.answer = some id) :
    call = .registerNext ∧ outcome.answer = .ok (.circuit id) := by
  cases hturn with
  | refused _ | declared _ _ _ | present _ _ | marked _ _ => cases hcreated
  | registered hkey _ | added hkey _ =>
      cases hcreated
      rw [hkey] at hreserved
      cases hreserved
  | issued _ =>
      cases hcreated
      exact ⟨rfl, rfl⟩

/-- A reserved identity is registered once it has been handed out, and not before. -/
theorem IsNew.mem_ids_iff_issued (hnew : start.IsNew) {id : CircuitId}
    (hreserved : id.isReserved = true) (calls : List Call) :
    id ∈ (start.run calls).registry.ids ↔
      (Call.registerNext, .ok (.circuit id)) ∈ start.history calls := by
  have hroot : id ≠ .root := by
    rintro rfl
    exact absurd hreserved (by decide)
  have hids : id ∈ (start.run calls).registry.ids ↔
      ∃ step ∈ start.history calls, createdBy step.2 = some id := by
    rw [hnew.run_ids_eq, List.mem_cons, or_iff_right hroot, created, answers_eq_map_history,
      List.filterMap_map, List.mem_filterMap]
    rfl
  rw [hids]
  constructor
  · rintro ⟨⟨call, answer⟩, hstep, hcreated⟩
    obtain ⟨earlier, later, -, hperform⟩ := mem_history_iff.mp hstep
    obtain rfl : ((start.run earlier).perform call).answer = answer := hperform
    have hturn := perform_turn (run_consistent hnew.consistent earlier) call
    obtain ⟨rfl, hissued⟩ := hturn.issued_of_createdBy hreserved hcreated
    rwa [hissued] at hstep
  · intro hstep
    exact ⟨_, hstep, rfl⟩

theorem nextReserved_eq_none_iff (h : draft.registry.Consistent) :
    draft.registry.nextReserved = none ↔ CircuitId.last ∈ draft.registry.ids := by
  have hreserved : CircuitId.last.isReserved = true := by decide
  have hmem : CircuitId.last ∈ draft.registry.ids ↔ _ :=
    (and_iff_left hreserved).symm.trans h.mem_reserved_iff
  have hfirst : CircuitId.firstReserved.key.toNat ≤ CircuitId.last.key.toNat := by decide
  have hlast : CircuitId.last.key.toNat + 1 = UInt64.size := by decide
  have hle : draft.registry.frontier ≤ UInt64.size := CircuitId.frontier_le _
  rw [← Registry.frontier_eq_size_iff, hmem]
  omega

/-- The index leads to a scope that carries the identity it was asked for, and to the root scope in
the first place; numbers start at one; the variables of a scope ascend, so that the search among
them is right; the number of inputs fits a word; and no scope is registered that carries another
identity, whatever is called. -/
structure Faultless (draft : Draft K) : Prop where
  slots : ∀ (id : CircuitId) (slot : Nat), draft.registry.scopes.slots[id]? = some slot →
    ∃ scope, draft.registry.scopes.entries[slot]? = some scope ∧ scope.id = id
  rootSlot : draft.registry.scopes.slots[CircuitId.root]? = some 0
  next_pos : ∀ var, draft.counter.next = some var → 0 < var.number.toNat
  nextReserved_free : ∀ id, draft.registry.nextReserved = some id → id ∉ draft.registry.ids
  ascending : ∀ scope ∈ draft.registry.toList, scope.vars.toList.Pairwise (· < ·)
  inputCount_lt : ∀ scope ∈ draft.registry.toList, scope.inputCount < UInt32.size
  no_mismatch : ∀ call own registered,
    (draft.perform call).answer ≠ .error (.identityMismatch own registered)

theorem Reachable.faultless (h : draft.Reachable) : draft.Faultless where
  slots := by
    intro id slot hslot
    exact Option.map_eq_some_iff.mp ((h.consistent.indexed id slot).mp hslot)
  rootSlot := by
    rw [h.consistent.indexed]
    have hfirst : draft.registry.scopes.entries[0]? = some draft.registry.root :=
      getElem?_pos draft.registry.scopes.entries 0 draft.registry.size_pos
    rw [hfirst, Option.map_some, h.consistent.id_root]
  next_pos var hnext := by
    have hvar := Counter.count_of_next h.recorded.started hnext
    omega
  nextReserved_free id hnext :=
    h.consistent.contains_eq_false_iff.mp (h.consistent.next_free hnext).2
  ascending _ := h.recorded.ascending
  inputCount_lt scope hscope := by
    have hcount := h.recorded.inputCount_le hscope
    have hsize := h.recorded.size_vars_le hscope
    have hlt := draft.counter.count_lt
    rw [varCount] at hsize
    omega
  no_mismatch := by
    intro call own registered hanswer
    obtain ⟨events, hrefusal⟩ := (answer_eq_error_iff h.consistent).mp hanswer
    cases hrefusal

/-- Each call is refused in exactly these cases, with the reason that comes first. Otherwise it is
granted, and nothing that a call takes for granted ever fails. -/
structure RefusesExactly (draft : Draft K) : Prop where
  secretInput : ∀ leaf cause, (draft.perform (.secretInput leaf)).answer = .error cause ↔
    cause = .variablesExhausted ∧ draft.varCount = UInt32.size - 1
  publicInput : ∀ leaf cause, (draft.perform (.publicInput leaf)).answer = .error cause ↔
    cause = .variablesExhausted ∧ draft.varCount = UInt32.size - 1
  internal : ∀ label cause, (draft.perform (.internal label)).answer = .error cause ↔
    cause = .variablesExhausted ∧ draft.varCount = UInt32.size - 1
  circuitInput : ∀ id leaf cause, (draft.perform (.circuitInput id leaf)).answer = .error cause ↔
    cause = .unknownCircuit id ∧ id ∉ draft.registry.ids ∨
      cause = .variablesExhausted ∧ id ∈ draft.registry.ids ∧ draft.varCount = UInt32.size - 1
  circuitInternal : ∀ id label cause,
    (draft.perform (.circuitInternal id label)).answer = .error cause ↔
      cause = .unknownCircuit id ∧ id ∉ draft.registry.ids ∨
        cause = .variablesExhausted ∧ id ∈ draft.registry.ids ∧ draft.varCount = UInt32.size - 1
  register : ∀ id cause, (draft.perform (.register id)).answer = .error cause ↔
    cause = .identityReserved id ∧ id.isReserved = true ∨
      cause = .identityTaken id ∧ id.isReserved = false ∧ id ∈ draft.registry.ids
  getOrRegister : ∀ id cause, (draft.perform (.getOrRegister id)).answer = .error cause ↔
    cause = .identityReserved id ∧ id.isReserved = true
  registerNext : ∀ (start : Draft K) calls, start.IsNew → start.run calls = draft → ∀ cause,
    (draft.perform .registerNext).answer = .error cause ↔
      cause = .identitiesExhausted ∧
        (Call.registerNext, .ok (.circuit .last)) ∈ start.history calls
  addOutput : ∀ id var cause, (draft.perform (.addOutput id var)).answer = .error cause ↔
    cause = .unknownCircuit id ∧ id ∉ draft.registry.ids ∨
      cause = .foreignVariable var id ∧ ∃ scope, draft.find? id = some scope ∧ var ∉ scope.vars
  faultless : ∀ calls, (draft.run calls).Faultless

theorem Reachable.refusesExactly (h : draft.Reachable) : draft.RefusesExactly where
  secretInput _ _ := h.rootDeclaration_error_iff rfl rfl
  publicInput _ _ := h.rootDeclaration_error_iff rfl rfl
  internal _ _ := h.rootDeclaration_error_iff rfl rfl
  circuitInput id leaf _ := h.declaration_error_iff (d := ⟨.circuitInput, leaf.name, id⟩) rfl
  circuitInternal id label _ := h.declaration_error_iff (d := ⟨.internal, label, id⟩) rfl
  register _ _ := h.register_error_iff
  getOrRegister _ _ := h.getOrRegister_error_iff
  registerNext := by
    rintro start calls hnew rfl cause
    rw [registerNext_error_iff h.consistent, nextReserved_eq_none_iff h.consistent,
      hnew.mem_ids_iff_issued (by decide)]
  addOutput _ _ _ := h.addOutput_error_iff
  faultless calls := (h.run calls).faultless

/-- One refusal for each reason that a draft can have this early. -/
theorem refusesExactly_mixed :
    mixed.Reachable ∧ mixed.RefusesExactly ∧
      mixed.answers
          [.circuitInput ⟨9⟩ (.plain "x"), .circuitInternal ⟨9⟩ "t", .register .firstReserved,
            .register ⟨7⟩, .getOrRegister .firstReserved, .addOutput ⟨9⟩ ⟨1⟩,
            .addOutput ⟨7⟩ ⟨1⟩] =
        [.error (.unknownCircuit ⟨9⟩), .error (.unknownCircuit ⟨9⟩),
          .error (.identityReserved .firstReserved), .error (.identityTaken ⟨7⟩),
          .error (.identityReserved .firstReserved), .error (.unknownCircuit ⟨9⟩),
          .error (.foreignVariable ⟨1⟩ ⟨7⟩)] :=
  ⟨reachable_mixed, reachable_mixed.refusesExactly, by decide +kernel⟩

end Draft

end CircuitDraft
