import CircuitDraft.Proofs.Reachable

/-!
What a call does to one scope of a draft. A call that is not for the scope leaves it as it is.
-/

namespace CircuitDraft

/-- The scope that a call declares a variable in or marks an output of. -/
def Call.addressee? : Call → Option CircuitId
  | .addOutput id _ => some id
  | call => call.declaration?.map Declaration.scope

theorem Call.addressee?_of_declaration? {call : Call} {d : Declaration}
    (hd : call.declaration? = some d) : call.addressee? = some d.scope := by
  cases call with
  | addOutput id var => cases hd
  | _ => simp [addressee?, hd]

namespace Draft

variable {K : PrimeField} {draft : Draft K} {id : CircuitId} {scope : Scope}

theorem contains_of_find? (h : draft.registry.Consistent) (hscope : draft.find? id = some scope) :
    draft.registry.contains id = true := by
  rw [h.contains_eq_isSome]
  exact Option.isSome_of_eq_some hscope

theorem find?_enter_self (h : draft.registry.Consistent) (entry : Journal.Entry)
    (hscope : draft.find? entry.scope = some scope) :
    (draft.enter entry).find? entry.scope = some (scope.record entry.origin.role entry.var) := by
  have hfind := h.find?_update_self entry.scope
    (f := fun scope => scope.record entry.origin.role entry.var) fun _ hid => hid
  exact hfind.trans (congrArg _ hscope)

theorem find?_enter_of_ne (h : draft.registry.Consistent) (entry : Journal.Entry)
    (hne : id ≠ entry.scope) : (draft.enter entry).find? id = draft.find? id :=
  h.find?_update_of_ne (fun _ hid => hid) hne

theorem find?_mark_self (h : draft.registry.Consistent) (var : Variable)
    (hscope : draft.find? id = some scope) :
    (draft.mark id var).find? id = some (scope.mark var) := by
  have hfind := h.find?_update_self id (f := fun scope => scope.mark var) fun _ hid => hid
  exact hfind.trans (congrArg _ hscope)

theorem find?_mark_of_ne (h : draft.registry.Consistent) {other : CircuitId} (hne : id ≠ other)
    (var : Variable) : (draft.mark other var).find? id = draft.find? id :=
  h.find?_update_of_ne (fun _ hid => hid) hne

theorem find?_enroll_of_find? (h : draft.registry.Consistent) {added : CircuitId}
    (hfree : draft.registry.contains added = false) (next : Option CircuitId)
    (hscope : draft.find? id = some scope) : (draft.enroll added next).find? id = some scope := by
  have hfind := h.find?_append (.empty added) next hfree id
  rw [show draft.registry.find? id = some scope from hscope, Option.some_or] at hfind
  exact hfind

/-- A registered scope that a call is not for is the same afterwards. -/
theorem Turn.find?_of_not_addressed {call : Call} {outcome : Outcome (Draft K) (Reply K)}
    (hturn : draft.Turn call outcome) (h : draft.registry.Consistent)
    (hcall : call.addressee? ≠ some id) (hscope : draft.find? id = some scope) :
    outcome.state.find? id = some scope := by
  cases hturn with
  | refused _ | present _ _ => exact hscope
  | @declared _ d var hd _ _ =>
      have hne : id ≠ d.scope := by
        rintro rfl
        exact hcall (Call.addressee?_of_declaration? hd)
      exact (find?_enter_of_ne h (d.entry var) hne).trans hscope
  | registered _ hfree | added _ hfree => exact find?_enroll_of_find? h hfree _ hscope
  | issued hnext => exact find?_enroll_of_find? h (h.next_free hnext).2 _ hscope
  | @marked other var _ _ _ =>
      have hne : id ≠ other := by
        rintro rfl
        exact hcall rfl
      exact (find?_mark_of_ne h hne var).trans hscope

/-- A call for a variable of a registered scope is granted while there are numbers left. -/
theorem perform_declaration (h : draft.registry.Consistent) {call : Call} {d : Declaration}
    (hd : call.declaration? = some d) (hscope : draft.find? d.scope = some scope)
    (hleft : (draft.perform call).answer ≠ .error .variablesExhausted) :
    ∃ var, draft.counter.next = some var ∧
      (draft.perform call).answer = .ok (.expr (.ofVariable var)) ∧
      (draft.perform call).state.find? d.scope = some (scope.record d.origin.role var) := by
  have hknown := contains_of_find? h hscope
  cases hnext : draft.counter.next with
  | none =>
      rw [(perform_eq_iff h).mpr (.refused (.exhausted hd hknown hnext))] at hleft
      exact absurd rfl hleft
  | some var =>
      rw [(perform_eq_iff h).mpr (.declared hd hknown hnext)]
      exact ⟨var, rfl, rfl, find?_enter_self h (d.entry var) hscope⟩

theorem perform_addOutput (h : draft.registry.Consistent) (hscope : draft.find? id = some scope)
    {var : Variable} (howned : scope.contains var = true) :
    (draft.perform (.addOutput id var)).answer = .ok .marked ∧
      (draft.perform (.addOutput id var)).state.find? id = some (scope.mark var) := by
  rw [(perform_eq_iff h).mpr (.marked hscope howned)]
  exact ⟨rfl, find?_mark_self h var hscope⟩

end Draft

end CircuitDraft
