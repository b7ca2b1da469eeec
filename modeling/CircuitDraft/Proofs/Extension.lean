import CircuitDraft.Proofs.Frame
import CircuitDraft.Proofs.ScopePartition

/-!
Calls only add to a draft. What has been registered, declared, marked and recorded stays in its
place, a scope that no call is for stays as it is, and so does the owner of every variable.
-/

namespace CircuitDraft

/-- `later` has all that `scope` has, and has it first. -/
structure Scope.Extends (scope later : Scope) : Prop where
  id : later.id = scope.id
  inputCount : scope.inputCount ≤ later.inputCount
  vars : scope.vars.toList <+: later.vars.toList
  outputs : scope.outputs.toList <+: later.outputs.toList

namespace Scope.Extends

theorem refl (scope : Scope) : scope.Extends scope :=
  ⟨rfl, Nat.le_refl _, List.prefix_rfl, List.prefix_rfl⟩

theorem trans {scope middle later : Scope} (h : scope.Extends middle) (h' : middle.Extends later) :
    scope.Extends later where
  id := h'.id.trans h.id
  inputCount := Nat.le_trans h.inputCount h'.inputCount
  vars := h.vars.trans h'.vars
  outputs := h.outputs.trans h'.outputs

theorem record (scope : Scope) (role : Role) (var : Variable) :
    scope.Extends (scope.record role var) where
  id := rfl
  inputCount := by
    simp only [Scope.record]
    split <;> omega
  vars := by
    rw [vars_record, Array.toList_push]
    exact List.prefix_append _ _
  outputs := List.prefix_rfl

theorem mark (scope : Scope) (var : Variable) : scope.Extends (scope.mark var) where
  id := rfl
  inputCount := Nat.le_refl _
  vars := List.prefix_rfl
  outputs := by
    rw [Scope.mark, Array.toList_push]
    exact List.prefix_append _ _

end Scope.Extends

/-- Each scope of a registry is still at its place in a later one, with all that it had. -/
def Registry.KeepsPlaces (registry later : Registry) : Prop :=
  ∀ (place : Nat) (scope : Scope), registry.toList[place]? = some scope →
    ∃ after, later.toList[place]? = some after ∧ scope.Extends after

namespace Registry

variable {registry : Registry}

theorem keepsPlaces_refl (registry : Registry) : registry.KeepsPlaces registry :=
  fun _ scope hscope => ⟨scope, hscope, .refl scope⟩

theorem KeepsPlaces.trans {middle later : Registry} (h : registry.KeepsPlaces middle)
    (h' : middle.KeepsPlaces later) : registry.KeepsPlaces later := by
  intro place scope hscope
  obtain ⟨between, hbetween, hextends⟩ := h place scope hscope
  obtain ⟨after, hafter, hextends'⟩ := h' place between hbetween
  exact ⟨after, hafter, hextends.trans hextends'⟩

theorem Consistent.keepsPlaces_update (h : registry.Consistent) (id : CircuitId)
    {f : Scope → Scope} (hf : ∀ scope : Scope, scope.Extends (f scope)) :
    registry.KeepsPlaces (registry.update id f) := by
  intro place scope hscope
  refine ⟨if scope.id = id then f scope else scope, ?_, ?_⟩
  · rw [h.toList_update, List.getElem?_map, hscope]
    rfl
  · split
    · exact hf scope
    · exact .refl scope

theorem keepsPlaces_enroll (registry : Registry) (id : CircuitId) (next : Option CircuitId) :
    registry.KeepsPlaces (registry.enroll id next) := by
  intro place scope hscope
  obtain ⟨hplace, -⟩ := List.getElem?_eq_some_iff.mp hscope
  refine ⟨scope, ?_, .refl scope⟩
  rw [toList_enroll, List.getElem?_append_left hplace, hscope]

end Registry

namespace Draft

variable {K : PrimeField} {draft : Draft K} {id : CircuitId} {scope : Scope} {var : Variable}

/-- `later` has all that `draft` has, in the same order and before anything else. The numbers of
variables and the reserved identities have not been taken back. -/
structure Extends (draft later : Draft K) : Prop where
  scopes : draft.registry.KeepsPlaces later.registry
  ids : draft.registry.ids <+: later.registry.ids
  publicInputs : draft.publicInputs.vars.toList <+: later.publicInputs.vars.toList
  journal : draft.journal.toList <+: later.journal.toList
  varCount : draft.varCount ≤ later.varCount
  nextReserved : ∀ id, later.registry.nextReserved = some id →
    ∃ earlier, draft.registry.nextReserved = some earlier ∧ earlier ≤ id

namespace Extends

theorem refl (draft : Draft K) : draft.Extends draft where
  scopes := draft.registry.keepsPlaces_refl
  ids := List.prefix_rfl
  publicInputs := List.prefix_rfl
  journal := List.prefix_rfl
  varCount := Nat.le_refl _
  nextReserved id hnext := ⟨id, hnext, UInt64.le_refl _⟩

theorem trans {middle later : Draft K} (h : draft.Extends middle) (h' : middle.Extends later) :
    draft.Extends later where
  scopes := h.scopes.trans h'.scopes
  ids := h.ids.trans h'.ids
  publicInputs := h.publicInputs.trans h'.publicInputs
  journal := h.journal.trans h'.journal
  varCount := Nat.le_trans h.varCount h'.varCount
  nextReserved := by
    intro id hnext
    obtain ⟨between, hbetween, hle⟩ := h'.nextReserved id hnext
    obtain ⟨earlier, hearlier, hle'⟩ := h.nextReserved between hbetween
    exact ⟨earlier, hearlier, UInt64.le_trans hle' hle⟩

theorem enter (h : draft.registry.Consistent) (hstarted : draft.counter.Started)
    {entry : Journal.Entry} (hnext : draft.counter.next = some entry.var) :
    draft.Extends (draft.enter entry) where
  scopes := h.keepsPlaces_update entry.scope fun scope => .record scope _ _
  ids := by simp only [ids_enter h, List.prefix_rfl]
  publicInputs := by
    simp only [Draft.enter]
    split
    · rw [PublicInputs.push, Array.toList_push]
      exact List.prefix_append _ _
    · exact List.prefix_rfl
  journal := by
    rw [Draft.enter, Journal.toList_push]
    exact List.prefix_append _ _
  varCount := by
    have hbefore : draft.varCount + 1 = entry.var.number.toNat :=
      Counter.count_of_next hstarted hnext
    have hafter : (draft.enter entry).varCount = entry.var.number.toNat :=
      Counter.count_succ? entry.var
    omega
  nextReserved id hid := ⟨id, hid, UInt64.le_refl _⟩

theorem enroll (draft : Draft K) (id : CircuitId) {next : Option CircuitId}
    (hnext : ∀ later, next = some later →
      ∃ earlier, draft.registry.nextReserved = some earlier ∧ earlier ≤ later) :
    draft.Extends (draft.enroll id next) where
  scopes := draft.registry.keepsPlaces_enroll id next
  ids := by
    rw [Draft.enroll, Registry.ids_enroll]
    exact List.prefix_append _ _
  publicInputs := List.prefix_rfl
  journal := List.prefix_rfl
  varCount := Nat.le_refl _
  nextReserved := hnext

theorem mark (h : draft.registry.Consistent) (id : CircuitId) (var : Variable) :
    draft.Extends (draft.mark id var) where
  scopes := h.keepsPlaces_update id fun scope => .mark scope var
  ids := by simp only [ids_mark h, List.prefix_rfl]
  publicInputs := List.prefix_rfl
  journal := List.prefix_rfl
  varCount := Nat.le_refl _
  nextReserved id hid := ⟨id, hid, UInt64.le_refl _⟩

end Extends

theorem Turn.extends_state {call : Call} {outcome : Outcome (Draft K) (Reply K)}
    (hturn : draft.Turn call outcome) (h : draft.registry.Consistent)
    (hstarted : draft.counter.Started) : draft.Extends outcome.state := by
  cases hturn with
  | refused _ | present _ _ => exact .refl draft
  | declared _ _ hnext => exact .enter h hstarted hnext
  | registered _ _ | added _ _ =>
      exact .enroll draft _ fun later hlater => ⟨later, hlater, UInt64.le_refl _⟩
  | @issued id hnext =>
      refine .enroll draft id fun later hlater => ⟨id, hnext, ?_⟩
      have := CircuitId.succ?_eq_some_iff.mp hlater
      exact UInt64.le_iff_toNat_le.mpr (by omega)
  | marked _ _ => exact .mark h _ _

theorem Reachable.extends_run (h : draft.Reachable) (calls : List Call) :
    draft.Extends (draft.run calls) := by
  induction calls generalizing draft with
  | nil => exact .refl draft
  | cons call rest ih =>
      have hstep := (perform_turn h.consistent call).extends_state h.consistent h.recorded.started
      exact hstep.trans (ih (h.perform call))

theorem run_find?_of_not_addressed (h : draft.registry.Consistent) {calls : List Call}
    (hcalls : ∀ call ∈ calls, call.addressee? ≠ some id) (hscope : draft.find? id = some scope) :
    (draft.run calls).find? id = some scope := by
  induction calls generalizing draft with
  | nil => exact hscope
  | cons call rest ih =>
      obtain ⟨hfirst, hrest⟩ := List.forall_mem_cons.mp hcalls
      have hturn := perform_turn h call
      exact ih (hturn.consistent h) hrest (hturn.find?_of_not_addressed h hfirst hscope)

theorem Reachable.getElem?_of_not_addressed (h : draft.Reachable) {calls : List Call} {place : Nat}
    (hcalls : ∀ call ∈ calls, call.addressee? ≠ some scope.id)
    (hscope : draft.registry.toList[place]? = some scope) :
    (draft.run calls).registry.toList[place]? = some scope := by
  obtain ⟨after, hafter, hextends⟩ := (h.extends_run calls).scopes place scope hscope
  have hfound : draft.find? scope.id = some scope :=
    h.consistent.find?_eq_some_iff.mpr ⟨List.mem_of_getElem? hscope, rfl⟩
  have hsame := run_find?_of_not_addressed h.consistent hcalls hfound
  have hlater : (draft.run calls).find? scope.id = some after :=
    (h.run calls).consistent.find?_eq_some_iff.mpr ⟨List.mem_of_getElem? hafter, hextends.id⟩
  rw [hafter, ← hlater, hsame]

theorem Reachable.owns_run (h : draft.Reachable) (calls : List Call) (id : CircuitId)
    (hvar : var.number.toNat ≤ draft.varCount) :
    (draft.run calls).owns id var = draft.owns id var := by
  have hlater := h.run calls
  have hjournal := (h.extends_run calls).journal
  rw [Bool.eq_iff_iff, hlater.recorded.owns_iff hlater.consistent,
    h.recorded.owns_iff h.consistent]
  constructor
  · rintro ⟨entry, hentry, rfl, hid⟩
    -- The number was used up before the calls, so its entry was there before them as well.
    have hpos := (hlater.recorded.minted_iff.mpr ⟨entry, hentry, rfl⟩).1
    obtain ⟨earlier, hearlier, hsame⟩ := h.recorded.minted_iff.mp ⟨hpos, hvar⟩
    obtain rfl := hlater.recorded.entry_unique (hjournal.subset hearlier) hentry hsame
    exact ⟨earlier, hearlier, rfl, hid⟩
  · rintro ⟨entry, hentry, hentryVar, hid⟩
    exact ⟨entry, hjournal.subset hentry, hentryVar, hid⟩

/-- Whatever is called next only adds to what the draft has. A scope that none of the calls is for
is the same afterwards, under its identity and at its place, and the variables that have been minted
by now belong to whom they belonged. -/
structure KeepsHistory (draft : Draft K) (calls : List Call) : Prop where
  added : draft.Extends (draft.run calls)
  place : ∀ (place : Nat) (scope : Scope), draft.registry.toList[place]? = some scope →
    (∀ call ∈ calls, call.addressee? ≠ some scope.id) →
      (draft.run calls).registry.toList[place]? = some scope
  find? : ∀ id scope, draft.find? id = some scope →
    (∀ call ∈ calls, call.addressee? ≠ some id) → (draft.run calls).find? id = some scope
  owns : ∀ id var, var.number.toNat ≤ draft.varCount →
    (draft.run calls).owns id var = draft.owns id var

theorem Reachable.keepsHistory (h : draft.Reachable) (calls : List Call) :
    draft.KeepsHistory calls where
  added := h.extends_run calls
  place _ _ hscope hcalls := h.getElem?_of_not_addressed hcalls hscope
  find? _ _ hscope hcalls := run_find?_of_not_addressed h.consistent hcalls hscope
  owns id _ hvar := h.owns_run calls id hvar

/-- Calls for three scopes, one of which is not there. -/
def furtherCalls : List Call :=
  [.circuitInput ⟨7⟩ (.plain "y"), .circuitInternal ⟨20⟩ "lost", .register ⟨20⟩,
    .addOutput ⟨7⟩ ⟨7⟩, .publicInput (.plain "q"), .registerNext, .addOutput ⟨8⟩ ⟨3⟩]

theorem keepsHistory_mixed :
    mixed.Reachable ∧ mixed.KeepsHistory furtherCalls ∧
      (mixed.run furtherCalls).registry.toList.map
          (fun scope => scope.vars.toList.map (·.number.toNat)) =
        [[1, 3, 5, 6, 8], [2, 7], [4], [], [], []] :=
  ⟨reachable_mixed, reachable_mixed.keepsHistory _, by decide +kernel⟩

end Draft

end CircuitDraft
