import CircuitDraft.Proofs.CallHistory
import CircuitDraft.Proofs.Deduplication

/-!
Sub-circuits that are asked for again and again are described once. Each key of a list is asked for
in turn, and its block is described when the sub-circuit was created by asking. The draft that comes
out is the one that the list without its repetitions leads to.
-/

namespace CircuitDraft

/-- The description of a sub-circuit as a finite program. All its calls are for that sub-circuit, and
what it does next may depend on the answers it was given. -/
inductive Block (K : PrimeField)
  | done
  | input (leaf : Leaf) (next : Except BuildError (Reply K) → Block K)
  | internal (label : String) (next : Except BuildError (Reply K) → Block K)
  | output (var : Variable) (next : Except BuildError (Reply K) → Block K)

/-- The calls that a block makes when it is described for the sub-circuit `id` of a draft. -/
def Block.calls {K : PrimeField} (id : CircuitId) (draft : Draft K) : Block K → List Call
  | .done => []
  | .input leaf next =>
      let outcome := draft.perform (.circuitInput id leaf)
      .circuitInput id leaf :: (next outcome.answer).calls id outcome.state
  | .internal label next =>
      let outcome := draft.perform (.circuitInternal id label)
      .circuitInternal id label :: (next outcome.answer).calls id outcome.state
  | .output var next =>
      let outcome := draft.perform (.addOutput id var)
      .addOutput id var :: (next outcome.answer).calls id outcome.state

namespace Draft

variable {K : PrimeField} {draft : Draft K} {body : CircuitId → Block K} {id : CircuitId}

/-- The calls that ask for a key and describe its block if the sub-circuit is new. -/
def describing (draft : Draft K) (body : CircuitId → Block K) (id : CircuitId) : List Call :=
  let outcome := draft.perform (.getOrRegister id)
  .getOrRegister id ::
    match outcome.answer with
    | .ok (.lookup (.added _)) => (body id).calls id outcome.state
    | _ => []

/-- The calls that do so for each key of a list in turn. -/
def describingEach (draft : Draft K) (body : CircuitId → Block K) : List CircuitId → List Call
  | [] => []
  | id :: rest =>
      draft.describing body id ++
        (draft.run (draft.describing body id)).describingEach body rest

/-- Asking for the identity creates nothing. -/
def Settled (draft : Draft K) (id : CircuitId) : Prop :=
  id.isReserved = true ∨ draft.registry.contains id = true

theorem contains_run (h : draft.registry.Consistent)
    (hknown : draft.registry.contains id = true) (calls : List Call) :
    (draft.run calls).registry.contains id = true := by
  rw [(run_consistent h calls).contains_iff, run_ids h]
  exact List.mem_append_left _ (h.contains_iff.mp hknown)

theorem Settled.run (hsettled : draft.Settled id) (h : draft.registry.Consistent)
    (calls : List Call) : (draft.run calls).Settled id :=
  hsettled.imp_right fun hknown => contains_run h hknown calls

/-- Asking for what is settled is all that is called then, and it changes nothing. -/
theorem Settled.describing_eq (hsettled : draft.Settled id) (h : draft.registry.Consistent)
    (body : CircuitId → Block K) :
    draft.describing body id = [.getOrRegister id] ∧
      (draft.perform (.getOrRegister id)).state = draft := by
  rw [describing]
  cases hreserved : id.isReserved with
  | true =>
      rw [(perform_eq_iff h).mpr (.refused (.reservedLookup hreserved))]
      exact ⟨rfl, rfl⟩
  | false =>
      have hknown := hsettled.resolve_left (Bool.eq_false_iff.mp hreserved)
      rw [(perform_eq_iff h).mpr (.present hreserved hknown)]
      exact ⟨rfl, rfl⟩

theorem Settled.run_describing (hsettled : draft.Settled id) (h : draft.registry.Consistent)
    (body : CircuitId → Block K) : draft.run (draft.describing body id) = draft := by
  obtain ⟨hcalls, hstate⟩ := hsettled.describing_eq h body
  rw [hcalls, run_cons, hstate, run_nil]

theorem settled_getOrRegister (h : draft.registry.Consistent) (id : CircuitId) :
    (draft.perform (.getOrRegister id)).state.Settled id := by
  cases hreserved : id.isReserved with
  | true => exact .inl hreserved
  | false =>
      refine .inr ?_
      have hturn := perform_turn h (.getOrRegister id)
      rw [(hturn.consistent h).contains_iff, hturn.mem_ids_iff h hreserved]
      exact .inr rfl

theorem settled_run_describing (h : draft.registry.Consistent) (body : CircuitId → Block K)
    (id : CircuitId) : (draft.run (draft.describing body id)).Settled id := by
  rw [describing, run_cons]
  exact (settled_getOrRegister h id).run (perform_consistent h _) _

theorem run_describingEach_cons (draft : Draft K) (body : CircuitId → Block K) (id : CircuitId)
    (rest : List CircuitId) :
    draft.run (draft.describingEach body (id :: rest)) =
      (draft.run (draft.describing body id)).run
        ((draft.run (draft.describing body id)).describingEach body rest) := by
  rw [describingEach, run_append]

theorem run_describingEach_append (draft : Draft K) (body : CircuitId → Block K)
    (ids later : List CircuitId) :
    draft.run (draft.describingEach body (ids ++ later)) =
      (draft.run (draft.describingEach body ids)).run
        ((draft.run (draft.describingEach body ids)).describingEach body later) := by
  induction ids generalizing draft with
  | nil => rfl
  | cons id rest ih => rw [List.cons_append, run_describingEach_cons, ih, run_describingEach_cons]

/-- What is settled can be left out of the list. -/
theorem Settled.run_describingEach (hsettled : draft.Settled id) (h : draft.registry.Consistent)
    (body : CircuitId → Block K) (ids : List CircuitId) :
    draft.run (draft.describingEach body ids) =
      draft.run (draft.describingEach body (ids.filter fun other => !other == id)) := by
  induction ids generalizing draft with
  | nil => rfl
  | cons other rest ih =>
      have hafter := ih (hsettled.run h (draft.describing body other)) (run_consistent h _)
      by_cases hother : other = id
      · subst hother
        rw [hsettled.run_describing h] at hafter
        rw [run_describingEach_cons, hsettled.run_describing h, hafter,
          List.filter_cons_of_neg (by simp)]
      · rw [run_describingEach_cons, hafter, List.filter_cons_of_pos (by simpa using hother),
          run_describingEach_cons]

theorem run_describingEach_eraseDups (h : draft.registry.Consistent) (body : CircuitId → Block K)
    (ids : List CircuitId) :
    draft.run (draft.describingEach body ids) =
      draft.run (draft.describingEach body ids.eraseDups) := by
  -- The list without the first key is shorter, but it need not be the tail of the list.
  induction hlength : ids.length using Nat.strong_induction_on generalizing draft ids with
  | _ length ih =>
      cases ids with
      | nil => rfl
      | cons id rest =>
          have hafter := run_consistent h (draft.describing body id)
          have hshorter : (rest.filter fun other => !other == id).length < length := by
            rw [← hlength]
            exact Nat.lt_succ_of_le (List.length_filter_le _ rest)
          rw [List.eraseDups_cons, run_describingEach_cons, run_describingEach_cons,
            (settled_run_describing h body id).run_describingEach hafter,
            ih _ hshorter hafter _ rfl]

theorem settled_of_mem (h : draft.registry.Consistent) (body : CircuitId → Block K)
    {ids : List CircuitId} (hid : id ∈ ids) :
    (draft.run (draft.describingEach body ids)).Settled id := by
  induction ids generalizing draft with
  | nil => cases hid
  | cons other rest ih =>
      have hafter := run_consistent h (draft.describing body other)
      rw [run_describingEach_cons]
      rcases List.mem_cons.mp hid with rfl | hrest
      · exact (settled_run_describing h body id).run hafter _
      · exact ih hafter hrest

/-- Going through a list of keys comes to the same as going through it without its repetitions. Each
repetition finds the sub-circuit of a caller's key present, makes no other call and changes nothing,
so all variables are declared by first descriptions. -/
structure DescribesOnce (draft : Draft K) (body : CircuitId → Block K) : Prop where
  run : ∀ ids, draft.run (draft.describingEach body ids) =
    draft.run (draft.describingEach body ids.eraseDups)
  present : ∀ ids id, id ∈ ids → id.isReserved = false →
    ((draft.run (draft.describingEach body ids)).perform (.getOrRegister id)).answer =
      .ok (.lookup (.present id))
  repeated : ∀ ids id, id ∈ ids →
    (draft.run (draft.describingEach body ids)).describing body id = [.getOrRegister id] ∧
      draft.run (draft.describingEach body (ids ++ [id])) =
        draft.run (draft.describingEach body ids)
  varCount : ∀ ids, (draft.run (draft.describingEach body ids)).varCount = draft.varCount +
    (draft.history (draft.describingEach body ids.eraseDups)).countP fun step =>
      step.1.declaration?.isSome && step.2.isOk

theorem Reachable.describesOnce (h : draft.Reachable) (body : CircuitId → Block K) :
    draft.DescribesOnce body where
  run := run_describingEach_eraseDups h.consistent body
  present := by
    intro ids id hid hkey
    have hafter := run_consistent h.consistent (draft.describingEach body ids)
    have hknown := (settled_of_mem h.consistent body hid).resolve_left
      (Bool.eq_false_iff.mp hkey)
    rw [(perform_eq_iff hafter).mpr (.present hkey hknown)]
  repeated := by
    intro ids id hid
    have hafter := run_consistent h.consistent (draft.describingEach body ids)
    have hsettled := settled_of_mem h.consistent body hid
    refine ⟨(hsettled.describing_eq hafter body).1, ?_⟩
    rw [run_describingEach_append, run_describingEach_cons, hsettled.run_describing hafter]
    rfl
  varCount := by
    intro ids
    rw [run_describingEach_eraseDups h.consistent body, h.varCount_run_eq]

/-- Two inputs and their sum, which is marked as the output unless it was refused. -/
def adder (K : PrimeField) : Block K :=
  .input (.plain "a") fun _ => .input (.plain "b") fun _ => .internal "a+b" fun answer =>
    match varOf? answer with
    | some sum => .output sum fun _ => .done
    | none => .done

theorem describesOnce_six_keys :
    mixed.Reachable ∧ mixed.DescribesOnce (fun _ => adder _) ∧
      (mixed.run (mixed.describingEach (fun _ => adder _)
        [⟨17⟩, ⟨7⟩, ⟨17⟩, .root, .firstReserved, ⟨4⟩, ⟨17⟩, ⟨4⟩])).registry.toList.map
          (fun scope => (scope.id, scope.outputs)) =
        [(.root, #[]), (⟨7⟩, #[⟨2⟩]), (.firstReserved, #[]), (⟨8⟩, #[]), (⟨17⟩, #[⟨9⟩]),
          (⟨4⟩, #[⟨12⟩])] :=
  ⟨reachable_mixed, reachable_mixed.describesOnce _, by decide +kernel⟩

end Draft

end CircuitDraft
