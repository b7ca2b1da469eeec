import CircuitDraft.Proofs.Reachable

/-!
Reserved identities are handed out one after the other, whatever other calls come between, and no
call that names a key ever touches them.
-/

namespace CircuitDraft

/-- The identity of the sub-circuit that a reply leads to. -/
def Reply.circuit? {K : PrimeField} : Reply K → Option CircuitId
  | .circuit id => some id
  | .lookup found => some found.id
  | .expr _ => none
  | .marked => none

theorem CircuitId.frontier_le (next : Option CircuitId) : frontier next ≤ UInt64.size := by
  cases next with
  | none => exact Nat.le_refl _
  | some id => exact Nat.le_of_lt id.key.toNat_lt_size

namespace Draft

variable {K : PrimeField} {draft : Draft K}

/-- No reserved identity is left, and asking for one changes nothing. -/
structure Spent (draft : Draft K) : Prop where
  answer : (draft.perform .registerNext).answer = .error .identitiesExhausted
  state : (draft.perform .registerNext).state = draft

/-- Both calls that name a key refuse this one and change nothing. -/
structure RefusesKey (draft : Draft K) (id : CircuitId) : Prop where
  register : (draft.perform (.register id)).answer = .error (.identityReserved id)
  state_register : (draft.perform (.register id)).state = draft
  getOrRegister : (draft.perform (.getOrRegister id)).answer = .error (.identityReserved id)
  state_getOrRegister : (draft.perform (.getOrRegister id)).state = draft

theorem Turn.frontier_of_ne {call : Call} {outcome : Outcome (Draft K) (Reply K)}
    (hturn : draft.Turn call outcome) (hcall : call ≠ .registerNext) :
    outcome.state.registry.frontier = draft.registry.frontier := by
  cases hturn with
  | issued _ => exact absurd rfl hcall
  | _ => rfl

/-- The frontier moves by one each time a reserved identity is asked for, up to the last number. -/
theorem Turn.frontier_registerNext {outcome : Outcome (Draft K) (Reply K)}
    (hturn : draft.Turn .registerNext outcome) :
    outcome.state.registry.frontier = min (draft.registry.frontier + 1) UInt64.size := by
  cases hturn with
  | refused hrefusal =>
      cases hrefusal with
      | unknown hd _ | exhausted hd _ _ => cases hd
      | identitiesExhausted hnext =>
          rw [Registry.frontier_eq_size_iff.mpr hnext]
          exact (Nat.min_eq_right (Nat.le_succ _)).symm
  | declared hd _ _ => cases hd
  | @issued id hnext =>
      rw [Registry.frontier_of_next hnext, Nat.min_eq_left id.key.toNat_lt_size]
      exact id.frontier_succ?

theorem run_frontier (h : draft.registry.Consistent) (calls : List Call) :
    (draft.run calls).registry.frontier =
      min (draft.registry.frontier + calls.count .registerNext) UInt64.size := by
  induction calls generalizing draft with
  | nil => exact (Nat.min_eq_left (CircuitId.frontier_le _)).symm
  | cons call rest ih =>
      have hturn := perform_turn h call
      rw [run_cons, ih (hturn.consistent h)]
      by_cases hcall : call = .registerNext
      · subst hcall
        rw [hturn.frontier_registerNext, List.count_cons_self]
        omega
      · rw [hturn.frontier_of_ne hcall, List.count_cons_of_ne hcall]

theorem IsNew.run_frontier (hnew : draft.IsNew) (calls : List Call) :
    (draft.run calls).registry.frontier =
      min (CircuitId.firstReserved.key.toNat + calls.count .registerNext) UInt64.size := by
  rw [Draft.run_frontier hnew.consistent]
  obtain ⟨config, rfl⟩ := hnew.exists_config
  rfl

theorem answer_registerNext (h : draft.registry.Consistent)
    (hlt : draft.registry.frontier < UInt64.size) :
    ∃ id : CircuitId, id.key.toNat = draft.registry.frontier ∧
      (draft.perform .registerNext).answer = .ok (.circuit id) := by
  have hsome : draft.registry.nextReserved ≠ none :=
    mt Registry.frontier_eq_size_iff.mpr (Nat.ne_of_lt hlt)
  obtain ⟨id, hnext⟩ := Option.ne_none_iff_exists'.mp hsome
  refine ⟨id, (Registry.frontier_of_next hnext).symm, ?_⟩
  rw [(perform_eq_iff h).mpr (.issued hnext)]

theorem spent_of_frontier (h : draft.registry.Consistent)
    (hfrontier : draft.registry.frontier = UInt64.size) : draft.Spent := by
  have hnext := Registry.frontier_eq_size_iff.mp hfrontier
  have hperform := (perform_eq_iff h).mpr (.refused (.identitiesExhausted hnext))
  constructor
  · rw [hperform]
  · rw [hperform]

theorem refusesKey_of_reserved (h : draft.registry.Consistent) {id : CircuitId}
    (hreserved : id.isReserved = true) : draft.RefusesKey id := by
  have hregister := (perform_eq_iff h).mpr (.refused (.reservedKey hreserved))
  have hget := (perform_eq_iff h).mpr (.refused (.reservedLookup hreserved))
  constructor
  · rw [hregister]
  · rw [hregister]
  · rw [hget]
  · rw [hget]

/-- A call that names a key leads to the sub-circuit of that key or to none. -/
theorem Turn.circuit_of_key {call : Call} {outcome : Outcome (Draft K) (Reply K)}
    (hturn : draft.Turn call outcome) {key : CircuitId} (hkey : call.key? = some key)
    {reply : Reply K} (hanswer : outcome.answer = .ok reply) :
    reply.circuit? = some key ∧ key.isReserved = false := by
  cases hturn with
  | refused _ => cases hanswer
  | declared hd _ _ => simp [key?_eq_none hd] at hkey
  | registered hfree _ | added hfree _ | present hfree _ =>
      cases hkey
      cases hanswer
      exact ⟨rfl, hfree⟩
  | issued _ | marked _ _ => cases hkey

theorem Turn.nextReserved_eq {outcome : Outcome (Draft K) (Reply K)}
    (hturn : draft.Turn .registerNext outcome) {id : CircuitId}
    (hanswer : outcome.answer = .ok (.circuit id)) : draft.registry.nextReserved = some id := by
  cases hturn with
  | refused _ => cases hanswer
  | declared hd _ _ => cases hd
  | issued hnext =>
      cases hanswer
      exact hnext

/-- Whatever calls are made, the reserved identities are handed out in the order of their numbers,
one for each time that one is asked for, until the last one is gone. Calls that name a key neither
register nor find any of them. -/
structure IssuesInOrder (start : Draft K) : Prop where
  issued : ∀ calls : List Call,
    CircuitId.firstReserved.key.toNat + calls.count .registerNext < UInt64.size →
      ∃ id : CircuitId,
        id.key.toNat = CircuitId.firstReserved.key.toNat + calls.count .registerNext ∧
        ((start.run calls).perform .registerNext).answer = .ok (.circuit id)
  spent : ∀ calls : List Call,
    UInt64.size ≤ CircuitId.firstReserved.key.toNat + calls.count .registerNext →
      (start.run calls).Spent
  spent_afterLast : ∀ (calls : List Call) (id : CircuitId), id.key.toNat + 1 = UInt64.size →
    (Call.registerNext, Except.ok (Reply.circuit id)) ∈ start.history calls →
      (start.run calls).Spent
  not_taken : ∀ (calls : List Call) (id : CircuitId),
    ((start.run calls).perform .registerNext).answer ≠ .error (.identityTaken id)
  refusesKey : ∀ (calls : List Call) (id : CircuitId), id.isReserved = true →
    (start.run calls).RefusesKey id
  apart : ∀ (calls : List Call) (call : Call) (key id : CircuitId) (reply : Reply K),
    call.key? = some key → (call, Except.ok reply) ∈ start.history calls →
      (Call.registerNext, Except.ok (Reply.circuit id)) ∈ start.history calls →
        reply.circuit? = some key ∧ key ≠ id

theorem IsNew.issued {start : Draft K} (hnew : start.IsNew) {calls : List Call}
    (hleft : CircuitId.firstReserved.key.toNat + calls.count .registerNext < UInt64.size) :
    ∃ id : CircuitId,
      id.key.toNat = CircuitId.firstReserved.key.toNat + calls.count .registerNext ∧
      ((start.run calls).perform .registerNext).answer = .ok (.circuit id) := by
  have hfrontier := hnew.run_frontier calls
  rw [Nat.min_eq_left (Nat.le_of_lt hleft)] at hfrontier
  rw [← hfrontier] at hleft ⊢
  exact answer_registerNext (run_consistent hnew.consistent calls) hleft

theorem IsNew.spent {start : Draft K} (hnew : start.IsNew) {calls : List Call}
    (hgone : UInt64.size ≤ CircuitId.firstReserved.key.toNat + calls.count .registerNext) :
    (start.run calls).Spent := by
  apply spent_of_frontier (run_consistent hnew.consistent calls)
  rw [hnew.run_frontier, Nat.min_eq_right hgone]

/-- An identity that was handed out has the number of the calls before it that asked for one. -/
theorem IsNew.toNat_of_mem_history {start : Draft K} (hnew : start.IsNew) {calls : List Call}
    {id : CircuitId}
    (hstep : (Call.registerNext, Except.ok (Reply.circuit id)) ∈ start.history calls) :
    id.isReserved = true ∧
      id.key.toNat < CircuitId.firstReserved.key.toNat + calls.count .registerNext := by
  obtain ⟨earlier, later, rfl, hanswer⟩ := mem_history_iff.mp hstep
  have hconsistent := run_consistent hnew.consistent earlier
  have hnext := (perform_turn hconsistent .registerNext).nextReserved_eq hanswer
  refine ⟨(hconsistent.next_free hnext).1, ?_⟩
  have hfrontier := hnew.run_frontier earlier
  rw [Registry.frontier_of_next hnext] at hfrontier
  rw [List.count_append, List.count_cons_self]
  omega

theorem IsNew.issuesInOrder {start : Draft K} (hnew : start.IsNew) : start.IssuesInOrder where
  issued _ := hnew.issued
  spent _ := hnew.spent
  spent_afterLast := by
    intro calls id hlast hstep
    have hcount := (hnew.toNat_of_mem_history hstep).2
    exact hnew.spent (by omega)
  not_taken := by
    intro calls id htaken
    rcases Nat.lt_or_ge (CircuitId.firstReserved.key.toNat + calls.count .registerNext)
      UInt64.size with hleft | hgone
    · obtain ⟨_, -, hanswer⟩ := hnew.issued hleft
      rw [hanswer] at htaken
      cases htaken
    · rw [(hnew.spent hgone).answer] at htaken
      cases htaken
  refusesKey calls _ := refusesKey_of_reserved (run_consistent hnew.consistent calls)
  apart := by
    intro calls call key id reply hkey hkeyed hissued
    obtain ⟨earlier, later, rfl, hanswer⟩ := mem_history_iff.mp hkeyed
    have hturn := perform_turn (run_consistent hnew.consistent earlier) call
    obtain ⟨hcircuit, hfree⟩ := hturn.circuit_of_key hkey hanswer
    refine ⟨hcircuit, ?_⟩
    rintro rfl
    rw [(hnew.toNat_of_mem_history hissued).1] at hfree
    cases hfree

theorem issuesInOrder_between_keys :
    (empty {} : Draft .babyBear).IsNew ∧ (empty {} : Draft .babyBear).IssuesInOrder ∧
      (empty {} : Draft .babyBear).answers
          [.registerNext, .register ⟨0x7FFFFFFFFFFFFFFF⟩, .getOrRegister .firstReserved,
            .registerNext] =
        [.ok (.circuit .firstReserved), .ok (.circuit ⟨0x7FFFFFFFFFFFFFFF⟩),
          .error (.identityReserved .firstReserved), .ok (.circuit ⟨0x8000000000000001⟩)] :=
  ⟨isNew_empty {}, (isNew_empty {}).issuesInOrder, by decide +kernel⟩

end Draft

end CircuitDraft
