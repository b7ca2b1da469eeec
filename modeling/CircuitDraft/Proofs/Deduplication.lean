import CircuitDraft.Proofs.Reachable
import Mathlib.Data.Finset.Card
import Mathlib.Data.Finset.Dedup

/-!
A key that a caller chooses stands for one sub-circuit throughout a sequence of calls: whichever call
asks for it first creates the sub-circuit, and all later ones find it.
-/

namespace CircuitDraft

/-- A key that callers can have a sub-circuit registered under. -/
def CircuitId.isCallerKey (id : CircuitId) : Bool :=
  CircuitId.root.key < id.key && id.key < firstReserved.key

theorem CircuitId.isCallerKey_iff {id : CircuitId} :
    id.isCallerKey = true ↔ id ≠ .root ∧ id.isReserved = false := by
  have hroot : id ≠ .root ↔ id.key.toNat ≠ 0 := by
    rw [not_iff_not]
    exact ⟨fun h => by rw [h]; rfl, fun h => eq_of_toNat_eq h⟩
  rw [hroot, ← Bool.not_eq_true, isReserved_iff]
  simp only [isCallerKey, Bool.and_eq_true, decide_eq_true_eq, UInt64.lt_iff_toNat_lt]
  change 0 < _ ∧ _ ↔ _
  omega

/-- The identity of the sub-circuit that a reply announces as new. -/
def Reply.created? {K : PrimeField} : Reply K → Option CircuitId
  | .circuit id => some id
  | .lookup (.added id) => some id
  | .lookup (.present _) => none
  | .expr _ => none
  | .marked => none

/-- The keys that calls ask for, in order and with repetitions. -/
def keysAsked (calls : List Call) : List CircuitId :=
  calls.filterMap Call.key?

namespace Draft

variable {K : PrimeField} {draft : Draft K}

def createdBy (answer : Except BuildError (Reply K)) : Option CircuitId :=
  answer.toOption.bind Reply.created?

@[simp]
theorem createdBy_error (cause : BuildError) :
    createdBy (.error cause : Except BuildError (Reply K)) = none :=
  rfl

@[simp]
theorem createdBy_ok (reply : Reply K) : createdBy (.ok reply) = reply.created? :=
  rfl

/-- The identities of the sub-circuits that a sequence of calls creates, in order. -/
def created (draft : Draft K) (calls : List Call) : List CircuitId :=
  (draft.answers calls).filterMap createdBy

/-- A call asked for the next reserved identity and was not refused. -/
def issues (step : Call × Except BuildError (Reply K)) : Bool :=
  step.1 = .registerNext && step.2.isOk

@[simp]
theorem issues_error (call : Call) (cause : BuildError) :
    issues (call, (.error cause : Except BuildError (Reply K))) = false :=
  Bool.and_false _

@[simp]
theorem issues_ok (call : Call) (reply : Reply K) :
    issues (call, .ok reply) = decide (call = .registerNext) :=
  Bool.and_true _

theorem created_cons (draft : Draft K) (call : Call) (rest : List Call) :
    draft.created (call :: rest) =
      (createdBy (draft.perform call).answer).toList ++
        (draft.perform call).state.created rest := by
  simp only [created, answers_cons, List.filterMap_cons]
  cases createdBy (draft.perform call).answer <;> rfl

theorem Turn.ids_eq {call : Call} {outcome : Outcome (Draft K) (Reply K)}
    (hturn : draft.Turn call outcome) (h : draft.registry.Consistent) :
    outcome.state.registry.ids =
      draft.registry.ids ++ (createdBy outcome.answer).toList := by
  cases hturn with
  | refused _ => exact (List.append_nil _).symm
  | declared _ _ _ => exact (ids_enter h _).trans (List.append_nil _).symm
  | registered _ _ => exact draft.registry.ids_enroll _ _
  | added _ _ => exact draft.registry.ids_enroll _ _
  | present _ _ => exact (List.append_nil _).symm
  | issued _ => exact draft.registry.ids_enroll _ _
  | marked _ _ => exact (ids_mark h _ _).trans (List.append_nil _).symm

theorem run_ids (h : draft.registry.Consistent) (calls : List Call) :
    (draft.run calls).registry.ids = draft.registry.ids ++ draft.created calls := by
  induction calls generalizing draft with
  | nil => exact (List.append_nil _).symm
  | cons call rest ih =>
      rw [run_cons, ih (perform_consistent h call), (perform_turn h call).ids_eq h, created_cons,
        List.append_assoc]

/-- A key below the reserved ones is registered by the calls that ask for it and by no others. -/
theorem Turn.mem_ids_iff {call : Call} {outcome : Outcome (Draft K) (Reply K)}
    (hturn : draft.Turn call outcome) (h : draft.registry.Consistent) {key : CircuitId}
    (hkey : key.isReserved = false) :
    key ∈ outcome.state.registry.ids ↔ key ∈ draft.registry.ids ∨ call.key? = some key := by
  rw [hturn.ids_eq h, List.mem_append]
  cases hturn with
  | refused hrefusal =>
      suffices hasked : call.key? = some key → key ∈ draft.registry.ids by
        simpa using hasked
      intro hasked
      cases hrefusal with
      | unknown hd _ | exhausted hd _ _ => simp [key?_eq_none hd] at hasked
      | reservedKey hreserved | reservedLookup hreserved =>
          simp [Option.some.inj hasked, hkey] at hreserved
      | taken _ hknown => exact Option.some.inj hasked ▸ h.contains_iff.mp hknown
      | identitiesExhausted _ | unknownOutput _ | foreignOutput _ _ => cases hasked
  | declared hd _ _ => simp [Reply.created?, key?_eq_none hd]
  | registered _ _ | added _ _ => simp [Reply.created?, Call.key?, eq_comm]
  | present _ hknown =>
      suffices hasked : Call.key? _ = some key → key ∈ draft.registry.ids by
        simpa [Reply.created?] using hasked
      intro hasked
      exact Option.some.inj hasked ▸ h.contains_iff.mp hknown
  | issued hnext =>
      have hne : key ≠ _ := fun heq => by
        rw [heq, (h.next_free hnext).1] at hkey
        cases hkey
      simp [Reply.created?, Call.key?, hne]
  | marked _ _ => simp [Reply.created?, Call.key?]

theorem mem_run_ids_iff (h : draft.registry.Consistent) {key : CircuitId}
    (hkey : key.isReserved = false) (calls : List Call) :
    key ∈ (draft.run calls).registry.ids ↔
      key ∈ draft.registry.ids ∨ key ∈ keysAsked calls := by
  induction calls generalizing draft with
  | nil => simp [keysAsked]
  | cons call rest ih =>
      rw [run_cons, ih (perform_consistent h call), (perform_turn h call).mem_ids_iff h hkey,
        or_assoc]
      simp [keysAsked, List.mem_filterMap]

theorem Turn.countP_createdBy {call : Call} {outcome : Outcome (Draft K) (Reply K)}
    (hturn : draft.Turn call outcome) (h : draft.registry.Consistent) :
    (createdBy outcome.answer).toList.countP CircuitId.isReserved =
      if issues (call, outcome.answer) then 1 else 0 := by
  cases hturn with
  | refused _ => simp
  | declared hd _ _ =>
      have hcall : call ≠ .registerNext := fun heq => by simp [heq, Call.declaration?] at hd
      simp [Reply.created?, hcall]
  | registered hkey _ | added hkey _ => simp [Reply.created?, hkey]
  | present _ _ | marked _ _ => simp [Reply.created?]
  | issued hnext =>
      have hreserved := (h.next_free hnext).1
      simp [Reply.created?, hreserved]

theorem countP_created (h : draft.registry.Consistent) (calls : List Call) :
    (draft.created calls).countP CircuitId.isReserved = (draft.history calls).countP issues := by
  induction calls generalizing draft with
  | nil => rfl
  | cons call rest ih =>
      rw [created_cons, List.countP_append, ih (perform_consistent h call),
        (perform_turn h call).countP_createdBy h, history_cons, List.countP_cons, Nat.add_comm]

theorem IsNew.ids_eq (hnew : draft.IsNew) : draft.registry.ids = [.root] := by
  obtain ⟨config, rfl⟩ := hnew.exists_config
  rfl

theorem IsNew.run_ids_eq (hnew : draft.IsNew) (calls : List Call) :
    (draft.run calls).registry.ids = .root :: draft.created calls := by
  rw [run_ids hnew.consistent, hnew.ids_eq]
  rfl

theorem IsNew.contains_run_iff (hnew : draft.IsNew) {key : CircuitId}
    (hkey : key.isReserved = false) (calls : List Call) :
    (draft.run calls).registry.contains key = true ↔ key = .root ∨ key ∈ keysAsked calls := by
  rw [(run_consistent hnew.consistent calls).contains_iff, mem_run_ids_iff hnew.consistent hkey,
    hnew.ids_eq, List.mem_singleton]

theorem IsNew.mem_created_iff (hnew : draft.IsNew) {key : CircuitId}
    (hkey : key.isCallerKey = true) (calls : List Call) :
    key ∈ draft.created calls ↔ key ∈ keysAsked calls := by
  obtain ⟨hroot, hreserved⟩ := CircuitId.isCallerKey_iff.mp hkey
  have hmem := hnew.contains_run_iff hreserved calls
  rw [(run_consistent hnew.consistent calls).contains_iff, hnew.run_ids_eq, List.mem_cons] at hmem
  simpa [hroot] using hmem

theorem IsNew.nodup_created (hnew : draft.IsNew) (calls : List Call) :
    .root ∉ draft.created calls ∧ (draft.created calls).Nodup := by
  have hnodup := (run_consistent hnew.consistent calls).nodup_ids
  rw [hnew.run_ids_eq] at hnodup
  exact List.nodup_cons.mp hnodup

/-- What was not created under a reserved identity was created under a key, and under each key that
was asked for only once. -/
theorem IsNew.length_created (hnew : draft.IsNew) (calls : List Call) :
    (draft.created calls).length =
      ((keysAsked calls).filter CircuitId.isCallerKey).toFinset.card +
        (draft.history calls).countP issues := by
  obtain ⟨hroot, hnodup⟩ := hnew.nodup_created calls
  -- The root was never created, so an identity that is not reserved is a key of a caller.
  have hkeyed : (draft.created calls).countP (fun id => ¬ id.isReserved = true) =
      ((draft.created calls).filter CircuitId.isCallerKey).length := by
    rw [← List.countP_eq_length_filter]
    apply List.countP_congr
    intro id hid
    have hne : id ≠ .root := fun heq => hroot (heq ▸ hid)
    simp [CircuitId.isCallerKey_iff, hne]
  have hkeys : ((draft.created calls).filter CircuitId.isCallerKey).toFinset =
      ((keysAsked calls).filter CircuitId.isCallerKey).toFinset := by
    ext key
    simp only [List.mem_toFinset, List.mem_filter]
    exact and_congr_left fun hkey => hnew.mem_created_iff hkey calls
  rw [List.length_eq_countP_add_countP CircuitId.isReserved, countP_created hnew.consistent,
    hkeyed, ← List.toFinset_card_of_nodup (hnodup.filter _), hkeys, Nat.add_comm]

/-- Asking for the key creates an empty sub-circuit under it. -/
structure Creates (draft : Draft K) (key : CircuitId) : Prop where
  register : (draft.perform (.register key)).answer = .ok (.circuit key)
  find?_register : (draft.perform (.register key)).state.find? key = some (.empty key)
  getOrRegister : (draft.perform (.getOrRegister key)).answer = .ok (.lookup (.added key))
  find?_getOrRegister : (draft.perform (.getOrRegister key)).state.find? key = some (.empty key)

/-- Asking for the key finds it taken, and changes nothing. -/
structure Reuses (draft : Draft K) (key : CircuitId) : Prop where
  register : (draft.perform (.register key)).answer = .error (.identityTaken key)
  state_register : (draft.perform (.register key)).state = draft
  getOrRegister : (draft.perform (.getOrRegister key)).answer = .ok (.lookup (.present key))
  state_getOrRegister : (draft.perform (.getOrRegister key)).state = draft

theorem find?_enroll {key : CircuitId} {next : Option CircuitId}
    (h : (draft.enroll key next).registry.Consistent) :
    (draft.enroll key next).find? key = some (.empty key) := by
  refine h.find?_eq_some_iff.mpr ⟨?_, rfl⟩
  simp [enroll]

theorem creates_of_free (h : draft.registry.Consistent) {key : CircuitId}
    (hkey : key.isReserved = false) (hfree : draft.registry.contains key = false) :
    draft.Creates key := by
  have hregister := (perform_eq_iff h).mpr (.registered hkey hfree)
  have hget := (perform_eq_iff h).mpr (.added hkey hfree)
  have hempty : (draft.enroll key draft.registry.nextReserved).find? key = some (.empty key) :=
    find?_enroll (h.enroll hkey hfree)
  constructor
  · rw [hregister]
  · rw [hregister]
    exact hempty
  · rw [hget]
  · rw [hget]
    exact hempty

theorem reuses_of_known (h : draft.registry.Consistent) {key : CircuitId}
    (hkey : key.isReserved = false) (hknown : draft.registry.contains key = true) :
    draft.Reuses key := by
  have hregister := (perform_eq_iff h).mpr (.refused (.taken hkey hknown))
  have hget := (perform_eq_iff h).mpr (.present hkey hknown)
  constructor
  · rw [hregister]
  · rw [hregister]
  · rw [hget]
  · rw [hget]

/-- Whatever calls are made, the first one that asks for a key creates its sub-circuit and all later
ones find it. The registered identities are the root, which counts as taken from the start, and those
that calls created, so they can be counted. -/
structure Deduplicates (start : Draft K) : Prop where
  first : ∀ calls key, key.isCallerKey = true → key ∉ keysAsked calls →
    (start.run calls).Creates key
  later : ∀ calls key, key.isCallerKey = true → key ∈ keysAsked calls →
    (start.run calls).Reuses key
  root : ∀ calls, (start.run calls).Reuses .root
  mem_created : ∀ calls key, key.isCallerKey = true →
    (key ∈ start.created calls ↔ key ∈ keysAsked calls)
  ids : ∀ calls, (start.run calls).registry.ids = .root :: start.created calls
  nodup_ids : ∀ calls, (start.run calls).registry.ids.Nodup
  size : ∀ calls, (start.run calls).registry.size =
    1 + ((keysAsked calls).filter CircuitId.isCallerKey).toFinset.card +
      (start.history calls).countP issues

theorem IsNew.deduplicates {start : Draft K} (hnew : start.IsNew) : start.Deduplicates where
  first := by
    intro calls key hkey hasked
    obtain ⟨hroot, hreserved⟩ := CircuitId.isCallerKey_iff.mp hkey
    apply creates_of_free (run_consistent hnew.consistent calls) hreserved
    rw [← Bool.not_eq_true, hnew.contains_run_iff hreserved]
    simp [hroot, hasked]
  later := by
    intro calls key hkey hasked
    obtain ⟨-, hreserved⟩ := CircuitId.isCallerKey_iff.mp hkey
    apply reuses_of_known (run_consistent hnew.consistent calls) hreserved
    exact (hnew.contains_run_iff hreserved calls).mpr (.inr hasked)
  root := by
    intro calls
    apply reuses_of_known (run_consistent hnew.consistent calls) CircuitId.isReserved_root
    exact (hnew.contains_run_iff CircuitId.isReserved_root calls).mpr (.inl rfl)
  mem_created calls key hkey := hnew.mem_created_iff hkey calls
  ids := hnew.run_ids_eq
  nodup_ids calls := (run_consistent hnew.consistent calls).nodup_ids
  size := by
    intro calls
    rw [← Registry.length_ids, hnew.run_ids_eq, List.length_cons, hnew.length_created]
    omega

theorem deduplicates_two_keys :
    (empty {} : Draft .babyBear).IsNew ∧ (empty {} : Draft .babyBear).Deduplicates ∧
      ((empty {} : Draft .babyBear).run
          [.getOrRegister ⟨5⟩, .registerNext, .register ⟨5⟩, .register ⟨9⟩,
            .getOrRegister ⟨5⟩]).registry.ids =
        [.root, ⟨5⟩, .firstReserved, ⟨9⟩] :=
  ⟨isNew_empty {}, (isNew_empty {}).deduplicates, by decide +kernel⟩

end Draft

end CircuitDraft
