import CircuitDraft.Proofs.Extension
import CircuitDraft.Proofs.Numbering

/-!
A declaration and a call that declares nothing can be made in either order. The order counts only
where the one provides what the other needs: the scope of the declaration, or the variable that is
to be marked.
-/

namespace CircuitDraft

namespace Registry

variable {registry : Registry}

theorem update_comm (registry : Registry) (id other : CircuitId) {f g : Scope → Scope}
    (hcomm : ∀ scope, f (g scope) = g (f scope)) :
    (registry.update id f).update other g = (registry.update other g).update id f := by
  simp only [update, registry.scopes.modify_comm id other hcomm]

theorem Consistent.update_enroll (h : registry.Consistent) {id added : CircuitId}
    (hne : added ≠ id) (f : Scope → Scope) (next : Option CircuitId) :
    (registry.enroll added next).update id f = (registry.update id f).enroll added next := by
  simp only [Registry.update, Registry.enroll, h.indexed.modify_push hne f (.empty added)]

end Registry

namespace Draft

variable {K : PrimeField} {draft : Draft K} {call other : Call} {d : Declaration}
  {entry : Journal.Entry} {id : CircuitId} {scope : Scope} {var : Variable}

theorem mark_enter (draft : Draft K) (entry : Journal.Entry) (id : CircuitId) (var : Variable) :
    (draft.enter entry).mark id var = (draft.mark id var).enter entry := by
  have hregistry := draft.registry.update_comm entry.scope id
    (f := fun scope => scope.record entry.origin.role entry.var) (g := fun scope => scope.mark var)
    fun _ => rfl
  simp only [mark, enter, hregistry]

theorem enroll_enter (h : draft.registry.Consistent) (hne : id ≠ entry.scope)
    (next : Option CircuitId) :
    (draft.enter entry).enroll id next = (draft.enroll id next).enter entry := by
  simp only [enroll, enter, h.update_enroll hne]

theorem contains_enter (draft : Draft K) (entry : Journal.Entry) (id : CircuitId) :
    (draft.enter entry).registry.contains id = draft.registry.contains id :=
  Arena.contains_modify _ _ _ _

theorem size_enter (draft : Draft K) (entry : Journal.Entry) :
    (draft.enter entry).registry.size = draft.registry.size :=
  Arena.size_modify _ _ _

theorem consistent_enter (h : draft.registry.Consistent) (entry : Journal.Entry) :
    (draft.enter entry).registry.Consistent :=
  h.update entry.scope fun _ hid => hid

theorem find?_enter_eq_none (h : draft.registry.Consistent) (hnone : draft.find? id = none) :
    (draft.enter entry).find? id = none := by
  apply (consistent_enter h entry).find?_eq_none_iff.mpr
  rw [contains_enter]
  exact h.find?_eq_none_iff.mp hnone

/-- Which of the other variables a scope has does not change when one more is entered. -/
theorem exists_find?_enter (h : draft.registry.Consistent) (hrecorded : draft.Recorded)
    (hlater : (draft.enter entry).Recorded) (hscope : draft.find? id = some scope)
    (hne : Call.addOutput id var ≠ .addOutput entry.scope entry.var) :
    ∃ after, (draft.enter entry).find? id = some after ∧
      after.contains var = scope.contains var := by
  by_cases hid : id = entry.scope
  · subst hid
    have hafter := find?_enter_self h entry hscope
    refine ⟨_, hafter, ?_⟩
    have hmem := (consistent_enter h entry).mem_of_find? hafter
    rw [Bool.eq_iff_iff, hlater.contains_iff hmem, hrecorded.contains_iff (h.mem_of_find? hscope),
      Scope.vars_record, Array.mem_push]
    exact or_iff_left fun hvar => hne (by rw [hvar])
  · exact ⟨scope, (find?_enter_of_ne h entry hid).trans hscope, rfl⟩

theorem Refusal.enter {cause : BuildError} {events : List Event}
    (hrefusal : draft.Refusal other cause events) (hother : other.declaration? = none)
    (h : draft.registry.Consistent) (hrecorded : draft.Recorded)
    (hlater : (draft.enter entry).Recorded) (hne : other ≠ .addOutput entry.scope entry.var) :
    (draft.enter entry).Refusal other cause events := by
  cases hrefusal with
  | unknown hd _ | exhausted hd _ _ => simp [hother] at hd
  | reservedKey hreserved => exact .reservedKey hreserved
  | reservedLookup hreserved => exact .reservedLookup hreserved
  | taken hkey hknown => exact .taken hkey ((draft.contains_enter entry _).trans hknown)
  | identitiesExhausted hnext => exact .identitiesExhausted hnext
  | unknownOutput hnone => exact .unknownOutput (find?_enter_eq_none h hnone)
  | foreignOutput hscope hforeign =>
      obtain ⟨after, hafter, hsame⟩ := exists_find?_enter h hrecorded hlater hscope hne
      exact .foreignOutput hafter (hsame.trans hforeign)

/-- A call that declares nothing turns out after a declaration as it did before. -/
theorem Turn.enter {outcome : Outcome (Draft K) (Reply K)} (hturn : draft.Turn other outcome)
    (hother : other.declaration? = none) (h : draft.registry.Consistent)
    (hrecorded : draft.Recorded) (hlater : (draft.enter entry).Recorded)
    (hknown : draft.registry.contains entry.scope = true)
    (hne : other ≠ .addOutput entry.scope entry.var) :
    (draft.enter entry).Turn other
      ⟨outcome.answer, outcome.state.enter entry, outcome.events⟩ := by
  -- A sub-circuit that is new cannot be the one that the declaration is for.
  have hfresh : ∀ id, draft.registry.contains id = false →
      (draft.enter entry).registry.contains id = false ∧ id ≠ entry.scope := by
    intro id hfree
    refine ⟨(draft.contains_enter entry id).trans hfree, ?_⟩
    rintro rfl
    simp [hknown] at hfree
  cases hturn with
  | refused hrefusal => exact .refused (hrefusal.enter hother h hrecorded hlater hne)
  | declared hd _ _ => simp [hother] at hd
  | @registered id hkey hfree =>
      obtain ⟨hfree', hid⟩ := hfresh id hfree
      have hturn' := Turn.registered hkey hfree'
      rw [enroll_enter h hid, size_enter] at hturn'
      exact hturn'
  | @added id hkey hfree =>
      obtain ⟨hfree', hid⟩ := hfresh id hfree
      have hturn' := Turn.added hkey hfree'
      rw [enroll_enter h hid, size_enter] at hturn'
      exact hturn'
  | present hkey hfound => exact .present hkey ((draft.contains_enter entry _).trans hfound)
  | @issued id hnext =>
      obtain ⟨-, hid⟩ := hfresh id (h.next_free hnext).2
      have hturn' : (draft.enter entry).Turn .registerNext _ := .issued hnext
      rw [enroll_enter h hid, size_enter] at hturn'
      exact hturn'
  | marked hscope howned =>
      obtain ⟨after, hafter, hsame⟩ := exists_find?_enter h hrecorded hlater hscope hne
      have hturn' := Turn.marked hafter (hsame.trans howned)
      rw [mark_enter] at hturn'
      exact hturn'

theorem Turn.publicInputs_of_none {outcome : Outcome (Draft K) (Reply K)}
    (hturn : draft.Turn other outcome) (hother : other.declaration? = none) :
    outcome.state.publicInputs = draft.publicInputs := by
  cases hturn with
  | declared hd _ _ => simp [hother] at hd
  | _ => rfl

theorem not_asks_of_none (draft : Draft K) (hother : other.declaration? = none) :
    draft.asks other = false := by
  rw [asks, hother, Option.any_none]

/-- A call adds the sub-circuit `id`, which was not there. -/
def Registers (draft : Draft K) (call : Call) (id : CircuitId) : Prop :=
  draft.registry.contains id = false ∧
    (draft.perform call).state.registry.contains id = true

theorem Reachable.contains_perform (h : draft.Reachable) (hnot : ¬ draft.Registers call id) :
    (draft.perform call).state.registry.contains id = draft.registry.contains id := by
  cases hknown : draft.registry.contains id with
  | false => exact Bool.eq_false_iff.mpr fun hlater => hnot ⟨hknown, hlater⟩
  | true =>
      apply (h.perform call).consistent.contains_iff.mpr
      exact (h.extends_run [call]).ids.subset (h.consistent.contains_iff.mp hknown)

theorem perform_of_declaration (h : draft.registry.Consistent) (hd : call.declaration? = some d) :
    draft.perform call =
      if draft.registry.contains d.scope = true then
        match draft.counter.next with
        | none => ⟨.error .variablesExhausted, draft, []⟩
        | some var =>
            ⟨.ok (.expr (.ofVariable var)), draft.enter (d.entry var),
              draft.entryEvents (d.entry var)⟩
      else ⟨.error (.unknownCircuit d.scope), draft, []⟩ := by
  rw [perform_eq_iff h]
  split
  · next hknown =>
    split
    · next hnext => exact .refused (.exhausted hd hknown hnext)
    · next hnext => exact .declared hd hknown hnext
  · next hfree => exact .refused (.unknown hd (Bool.eq_false_iff.mpr hfree))

/-- Two calls come to the same in either order: the same answers, the same events and the same draft
after them. -/
structure Interchanges (draft : Draft K) (call other : Call) : Prop where
  answer : ((draft.perform other).state.perform call).answer = (draft.perform call).answer
  otherAnswer : ((draft.perform call).state.perform other).answer = (draft.perform other).answer
  events : ((draft.perform other).state.perform call).events = (draft.perform call).events
  otherEvents : ((draft.perform call).state.perform other).events = (draft.perform other).events
  run : draft.run [call, other] = draft.run [other, call]

theorem Reachable.interchanges (h : draft.Reachable) (hd : call.declaration? = some d)
    (hother : other.declaration? = none) (hscope : ¬ draft.Registers other d.scope)
    (hvar : ∀ var, other = .addOutput d.scope var →
      (draft.perform call).answer ≠ .ok (.expr (.ofVariable var))) :
    draft.Interchanges call other := by
  have hturn := perform_turn h.consistent other
  have hcall := perform_of_declaration h.consistent hd
  have hafter := perform_of_declaration (h.perform other).consistent hd
  rw [h.contains_perform hscope, hturn.counter_of_not_asks (draft.not_asks_of_none hother)]
    at hafter
  cases hknown : draft.registry.contains d.scope with
  | false =>
      simp only [hknown, Bool.false_eq_true, if_false] at hcall hafter
      constructor <;> simp [hcall, hafter]
  | true =>
      simp only [hknown, if_true] at hcall hafter
      cases hnext : draft.counter.next with
      | none =>
          simp only [hnext] at hcall hafter
          constructor <;> simp [hcall, hafter]
      | some var =>
          simp only [hnext, entryEvents, hturn.publicInputs_of_none hother] at hcall hafter
          have hlater := h.perform call
          rw [hcall] at hlater
          have hne : other ≠ .addOutput (d.entry var).scope (d.entry var).var := by
            intro heq
            exact hvar var heq (by rw [hcall])
          have hthen := hturn.enter hother h.consistent h.recorded hlater.recorded hknown hne
          have hthen' := (perform_eq_iff hlater.consistent).mpr hthen
          constructor <;> simp [hcall, hafter, hthen']

/-- A declaration in a scope that is only just being registered would have been refused before. -/
theorem Reachable.answer_ne_of_registers (h : draft.Reachable) (hd : call.declaration? = some d)
    (hregisters : draft.Registers other d.scope) :
    ((draft.perform other).state.perform call).answer ≠ (draft.perform call).answer := by
  obtain ⟨hfree, hknown⟩ := hregisters
  rw [perform_of_declaration h.consistent hd, perform_of_declaration (h.perform other).consistent hd,
    if_pos hknown, if_neg (Bool.eq_false_iff.mp hfree)]
  split <;> nofun

theorem enter_of_minted (h : draft.registry.Consistent) (hd : call.declaration? = some d)
    (hanswer : (draft.perform call).answer = .ok (.expr (.ofVariable var))) :
    draft.registry.contains d.scope = true ∧ draft.counter.next = some var ∧
      (draft.perform call).state = draft.enter (d.entry var) := by
  rw [perform_of_declaration h hd] at hanswer ⊢
  split at hanswer
  · next hknown =>
    rw [if_pos hknown]
    split at hanswer
    · cases hanswer
    · next hnext =>
      cases hanswer
      exact ⟨hknown, hnext, rfl⟩
  · cases hanswer

theorem Recorded.not_contains_next (h : draft.Recorded) (hscope : scope ∈ draft.registry.toList)
    (hnext : draft.counter.next = some var) : scope.contains var = false := by
  rw [← Bool.not_eq_true, h.contains_iff hscope]
  intro hvar
  have hle := (h.minted_of_mem_vars hscope hvar).2
  have hnumber : draft.varCount + 1 = var.number.toNat := Counter.count_of_next h.started hnext
  omega

/-- A variable that is only just being minted could not have been marked before. -/
theorem Reachable.answer_ne_of_minted (h : draft.Reachable) (hd : call.declaration? = some d)
    (hanswer : (draft.perform call).answer = .ok (.expr (.ofVariable var))) :
    ((draft.perform call).state.perform (.addOutput d.scope var)).answer ≠
      (draft.perform (.addOutput d.scope var)).answer := by
  obtain ⟨hknown, hnext, hstate⟩ := enter_of_minted h.consistent hd hanswer
  have hlater := h.perform call
  rw [hstate] at hlater ⊢
  obtain ⟨scope, hscope⟩ := exists_scope h.consistent hknown
  have hforeign := h.recorded.not_contains_next (h.consistent.mem_of_find? hscope) hnext
  have hafter : (draft.enter (d.entry var)).find? d.scope =
      some (scope.record d.origin.role var) := find?_enter_self h.consistent (d.entry var) hscope
  have howned : (scope.record d.origin.role var).contains var = true := by
    apply (hlater.recorded.contains_iff (hlater.consistent.mem_of_find? hafter)).mpr
    exact Array.mem_push_self
  rw [(perform_addOutput hlater.consistent hafter howned).1,
    (perform_eq_iff h.consistent).mpr (.refused (.foreignOutput hscope hforeign))]
  nofun

/-- The two cases in which the order counts are those in which the one call provides what the other
needs. -/
theorem Reachable.interchanges_iff (h : draft.Reachable) (hd : call.declaration? = some d)
    (hother : other.declaration? = none) :
    draft.Interchanges call other ↔ ¬ draft.Registers other d.scope ∧
      ∀ var, other = .addOutput d.scope var →
        (draft.perform call).answer ≠ .ok (.expr (.ofVariable var)) := by
  constructor
  · intro hinterchanges
    refine ⟨fun hregisters => h.answer_ne_of_registers hd hregisters hinterchanges.answer, ?_⟩
    rintro var rfl hanswer
    exact h.answer_ne_of_minted hd hanswer hinterchanges.otherAnswer
  · rintro ⟨hscope, hvar⟩
    exact h.interchanges hd hother hscope hvar

theorem interchanges_iff_mixed :
    mixed.Reachable ∧
      (Call.circuitInput ⟨7⟩ (.plain "y")).declaration? = some ⟨.circuitInput, "y", ⟨7⟩⟩ ∧
      (Call.addOutput ⟨7⟩ ⟨2⟩).declaration? = none ∧
      mixed.Interchanges (.circuitInput ⟨7⟩ (.plain "y")) (.addOutput ⟨7⟩ ⟨2⟩) ∧
      ¬ mixed.Interchanges (.circuitInput ⟨7⟩ (.plain "y")) (.addOutput ⟨7⟩ ⟨7⟩) ∧
      ¬ mixed.Interchanges (.circuitInternal ⟨20⟩ "t") (.register ⟨20⟩) := by
  refine ⟨reachable_mixed, rfl, rfl, ?_, ?_, ?_⟩
  · apply (reachable_mixed.interchanges_iff (d := ⟨.circuitInput, "y", ⟨7⟩⟩) rfl rfl).mpr
    refine ⟨fun hregisters => absurd hregisters.1 (by decide +kernel), ?_⟩
    rintro _ ⟨rfl⟩
    decide +kernel
  · rw [reachable_mixed.interchanges_iff (d := ⟨.circuitInput, "y", ⟨7⟩⟩) rfl rfl]
    rintro ⟨-, hvar⟩
    exact hvar ⟨7⟩ rfl (by decide +kernel)
  · rw [reachable_mixed.interchanges_iff (d := ⟨.internal, "t", ⟨20⟩⟩) rfl rfl]
    rintro ⟨hscope, -⟩
    exact hscope ⟨by decide +kernel, by decide +kernel⟩

end Draft

end CircuitDraft
