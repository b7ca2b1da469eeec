import CircuitDraft.Proofs.CallHistory

/-!
The number of a variable says how many calls had asked for one by then. Which kinds of calls these
were, which scopes they were for and what was called in between makes no difference.
-/

namespace CircuitDraft.Draft

variable {K : PrimeField} {draft : Draft K} {call : Call}

/-- A call asks for a variable in a scope that is registered. -/
def asks (draft : Draft K) (call : Call) : Bool :=
  call.declaration?.any fun d => draft.registry.contains d.scope

/-- How many calls of a sequence ask for a variable in a scope that is registered by then. -/
def demand (draft : Draft K) : List Call → Nat
  | [] => 0
  | call :: rest =>
      (if draft.asks call then 1 else 0) + (draft.perform call).state.demand rest

theorem asks_eq_true_iff : draft.asks call = true ↔
    ∃ d, call.declaration? = some d ∧ draft.registry.contains d.scope = true := by
  rw [asks, Option.any_eq_true]

theorem Turn.counter_of_not_asks {outcome : Outcome (Draft K) (Reply K)}
    (hturn : draft.Turn call outcome) (hasks : draft.asks call = false) :
    outcome.state.counter = draft.counter := by
  cases hturn with
  | declared hd hknown _ =>
      rw [asks_eq_true_iff.mpr ⟨_, hd, hknown⟩] at hasks
      cases hasks
  | _ => rfl

theorem perform_of_asks_exhausted (h : draft.registry.Consistent)
    (hasks : draft.asks call = true) (hnext : draft.counter.next = none) :
    draft.perform call = ⟨.error .variablesExhausted, draft, []⟩ := by
  obtain ⟨d, hd, hknown⟩ := asks_eq_true_iff.mp hasks
  exact (perform_eq_iff h).mpr (.refused (.exhausted hd hknown hnext))

theorem perform_of_asks_next (h : draft.registry.Consistent) (hasks : draft.asks call = true)
    {var : Variable} (hnext : draft.counter.next = some var) :
    (draft.perform call).answer = .ok (.expr (.ofVariable var)) ∧
      (draft.perform call).state.counter = ⟨var.succ?⟩ := by
  obtain ⟨d, hd, hknown⟩ := asks_eq_true_iff.mp hasks
  rw [(perform_eq_iff h).mpr (.declared hd hknown hnext)]
  exact ⟨rfl, rfl⟩

theorem varCount_le (draft : Draft K) : draft.varCount ≤ UInt32.size - 1 :=
  Nat.le_pred_of_lt draft.counter.count_lt

theorem varCount_of_exhausted (hnext : draft.counter.next = none) :
    draft.varCount = UInt32.size - 1 := by
  rw [varCount, Counter.count, hnext]

/-- One call raises the count by one if it asks for a variable, up to the last number. -/
theorem Recorded.varCount_perform (h : draft.Recorded) (hconsistent : draft.registry.Consistent)
    (call : Call) :
    (draft.perform call).state.varCount =
      min (draft.varCount + if draft.asks call then 1 else 0) (UInt32.size - 1) := by
  have hle := draft.varCount_le
  cases hasks : draft.asks call with
  | false =>
      have hcounter := (perform_turn hconsistent call).counter_of_not_asks hasks
      rw [varCount, hcounter]
      exact (Nat.min_eq_left hle).symm
  | true =>
      rw [if_pos rfl]
      cases hnext : draft.counter.next with
      | none =>
          rw [perform_of_asks_exhausted hconsistent hasks hnext, varCount_of_exhausted hnext]
          exact (Nat.min_eq_right (Nat.le_succ _)).symm
      | some var =>
          have hbefore : draft.varCount + 1 = var.number.toNat :=
            Counter.count_of_next h.started hnext
          have hlast := var.number.toNat_lt_size
          rw [varCount, (perform_of_asks_next hconsistent hasks hnext).2, Counter.count_succ?,
            hbefore]
          omega

theorem Reachable.varCount_run (h : draft.Reachable) (calls : List Call) :
    (draft.run calls).varCount = min (draft.varCount + draft.demand calls) (UInt32.size - 1) := by
  induction calls generalizing draft with
  | nil => exact (Nat.min_eq_left draft.varCount_le).symm
  | cons call rest ih =>
      rw [run_cons, ih (h.perform call), h.recorded.varCount_perform h.consistent, demand]
      omega

theorem IsNew.varCount_run (hnew : draft.IsNew) (calls : List Call) :
    (draft.run calls).varCount = min (draft.demand calls) (UInt32.size - 1) := by
  rw [hnew.reachable.varCount_run]
  obtain ⟨config, rfl⟩ := hnew.exists_config
  exact congrArg (min · _) (Nat.zero_add _)

/-- The variables that calls are answered with are numbered from one on in the order in which calls
ask for them, until no number is left. Calls that ask in vain for a scope that is not registered,
and calls that ask for something else, do not count and leave the counter alone. -/
structure NumbersByDemand (start : Draft K) : Prop where
  numbered : ∀ calls call, (start.run calls).asks call = true →
    start.demand calls + 1 < UInt32.size →
      ∃ var : Variable, var.number.toNat = start.demand calls + 1 ∧
        ((start.run calls).perform call).answer = .ok (.expr ⟨[⟨1, var⟩]⟩) ∧
        (⟨[⟨1, var⟩]⟩ : LinearExpr K.Element).singleVariable? = some var
  exhausted : ∀ calls call, (start.run calls).asks call = true →
    UInt32.size ≤ start.demand calls + 1 →
      ((start.run calls).perform call).answer = .error .variablesExhausted
  varCount : ∀ calls, (start.run calls).varCount = min (start.demand calls) (UInt32.size - 1)
  counter : ∀ calls call, (start.run calls).asks call = false →
    ((start.run calls).perform call).state.counter = (start.run calls).counter

theorem IsNew.numbersByDemand {start : Draft K} (hnew : start.IsNew) :
    start.NumbersByDemand where
  numbered := by
    intro calls call hasks hleft
    have h := hnew.reachable.run calls
    have hcount := hnew.varCount_run calls
    rw [Nat.min_eq_left (by omega)] at hcount
    cases hnext : (start.run calls).counter.next with
    | none =>
        rw [varCount_of_exhausted hnext] at hcount
        omega
    | some var =>
        have hvar : (start.run calls).varCount + 1 = var.number.toNat :=
          Counter.count_of_next h.recorded.started hnext
        refine ⟨var, by rw [← hvar, hcount], ?_, ?_⟩
        · exact (perform_of_asks_next h.consistent hasks hnext).1
        · exact LinearExpr.singleVariable?_eq_some_iff.mpr
            ⟨rfl, ne_one_of_next h.recorded.started hnext⟩
  exhausted := by
    intro calls call hasks hgone
    have h := hnew.reachable.run calls
    have hcount := hnew.varCount_run calls
    rw [Nat.min_eq_right (by omega)] at hcount
    cases hnext : (start.run calls).counter.next with
    | none => rw [perform_of_asks_exhausted h.consistent hasks hnext]
    | some var =>
        -- The count would give this variable a number past the last one.
        have hvar : (start.run calls).varCount + 1 = var.number.toNat :=
          Counter.count_of_next h.recorded.started hnext
        have hlast := var.number.toNat_lt_size
        omega
  varCount := hnew.varCount_run
  counter calls call hasks :=
    (perform_turn (hnew.reachable.run calls).consistent call).counter_of_not_asks hasks

theorem numbersByDemand_between_scopes :
    (empty {} : Draft .babyBear).IsNew ∧ (empty {} : Draft .babyBear).NumbersByDemand ∧
      (empty {} : Draft .babyBear).demand
          [.circuitInput ⟨7⟩ (.plain "early"), .secretInput (.plain "s"), .register ⟨7⟩,
            .addOutput .root ⟨1⟩, .circuitInternal ⟨7⟩ "t", .addOutput ⟨7⟩ ⟨1⟩] = 2 ∧
      ((empty {} : Draft .babyBear).answers
          [.circuitInput ⟨7⟩ (.plain "early"), .secretInput (.plain "s"), .register ⟨7⟩,
            .addOutput .root ⟨1⟩, .circuitInternal ⟨7⟩ "t", .addOutput ⟨7⟩ ⟨1⟩,
            .publicInput (.plain "p")]).getLast? =
        some (.ok (.expr (.ofVariable ⟨3⟩))) :=
  ⟨isNew_empty {}, (isNew_empty {}).numbersByDemand, by decide +kernel, by decide +kernel⟩

end CircuitDraft.Draft
