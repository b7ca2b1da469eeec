import CircuitDraft.Proofs.Turn

namespace CircuitDraft.Draft

variable {K : PrimeField}

/-- A draft as a successful `create` gives it. -/
def IsNew (draft : Draft K) : Prop :=
  ∃ requested config, (create requested config).1 = .ok draft

/-- A draft that a sequence of calls on a new one leads to, refused calls included. -/
def Reachable (draft : Draft K) : Prop :=
  ∃ (start : Draft K) (calls : List Call), start.IsNew ∧ start.run calls = draft

/-- The calls of a sequence, each with its answer. -/
def history (draft : Draft K) (calls : List Call) :
    List (Call × Except BuildError (Reply K)) :=
  calls.zip (draft.answers calls)

theorem create_eq_ok_iff {requested : Nat} {config : Config} {draft : Draft K} :
    (create requested config).1 = .ok draft ↔ requested = K.modulus ∧ draft = empty config := by
  rw [create]
  split
  · next haccepts =>
    have hmodulus : requested = K.modulus := by simpa [PrimeField.accepts] using haccepts
    simp only [hmodulus, true_and, Except.ok.injEq]
    exact eq_comm
  · next haccepts =>
    have hmodulus : requested ≠ K.modulus := by simpa [PrimeField.accepts] using haccepts
    simp [hmodulus]

theorem isNew_empty (config : Config) : (empty config : Draft K).IsNew :=
  ⟨K.modulus, config, create_eq_ok_iff.mpr ⟨rfl, rfl⟩⟩

theorem IsNew.exists_config {draft : Draft K} (h : draft.IsNew) :
    ∃ config, draft = empty config := by
  obtain ⟨_, config, hcreate⟩ := h
  exact ⟨config, (create_eq_ok_iff.mp hcreate).2⟩

@[simp]
theorem answers_nil (draft : Draft K) : draft.answers [] = [] :=
  rfl

@[simp]
theorem answers_cons (draft : Draft K) (call : Call) (rest : List Call) :
    draft.answers (call :: rest) =
      (draft.perform call).answer :: (draft.perform call).state.answers rest :=
  rfl

@[simp]
theorem history_nil (draft : Draft K) : draft.history [] = [] :=
  rfl

@[simp]
theorem history_cons (draft : Draft K) (call : Call) (rest : List Call) :
    draft.history (call :: rest) =
      (call, (draft.perform call).answer) :: (draft.perform call).state.history rest :=
  rfl

theorem history_append (draft : Draft K) (calls later : List Call) :
    draft.history (calls ++ later) = draft.history calls ++ (draft.run calls).history later := by
  induction calls generalizing draft with
  | nil => rfl
  | cons call rest ih => exact congrArg _ (ih _)

theorem mem_history_iff {draft : Draft K} {calls : List Call}
    {step : Call × Except BuildError (Reply K)} :
    step ∈ draft.history calls ↔ ∃ earlier later, calls = earlier ++ step.1 :: later ∧
      ((draft.run earlier).perform step.1).answer = step.2 := by
  induction calls generalizing draft with
  | nil => simp
  | cons call rest ih =>
      rw [history_cons, List.mem_cons, ih]
      constructor
      · rintro (rfl | ⟨earlier, later, rfl, hanswer⟩)
        · exact ⟨[], rest, rfl, rfl⟩
        · exact ⟨call :: earlier, later, rfl, hanswer⟩
      · rintro ⟨_ | ⟨first, earlier⟩, later, hcalls, hanswer⟩
        · obtain ⟨rfl, rfl⟩ := List.cons.inj hcalls
          exact .inl (Prod.ext rfl hanswer.symm)
        · obtain ⟨rfl, hrest⟩ := List.cons.inj hcalls
          exact .inr ⟨earlier, later, hrest, hanswer⟩

theorem consistent_empty (config : Config) : (empty config : Draft K).registry.Consistent :=
  Registry.consistent_new

theorem Turn.consistent {draft : Draft K} {call : Call} {outcome : Outcome (Draft K) (Reply K)}
    (hturn : draft.Turn call outcome) (h : draft.registry.Consistent) :
    outcome.state.registry.Consistent := by
  cases hturn with
  | refused _ => exact h
  | declared _ _ _ => exact h.update _ fun _ hid => hid
  | registered hkey hfree => exact h.enroll hkey hfree
  | added hkey hfree => exact h.enroll hkey hfree
  | present _ _ => exact h
  | issued hnext => exact h.enroll_next hnext
  | marked _ _ => exact h.update _ fun _ hid => hid

theorem perform_consistent {draft : Draft K} (h : draft.registry.Consistent) (call : Call) :
    (draft.perform call).state.registry.Consistent :=
  (perform_turn h call).consistent h

/-- What each call keeps on a draft whose registry is consistent, a sequence of calls keeps. -/
theorem run_induction {P : Draft K → Prop}
    (hstep : ∀ (draft : Draft K) (call : Call) (outcome : Outcome (Draft K) (Reply K)),
      draft.registry.Consistent → draft.Turn call outcome → P draft → P outcome.state)
    {draft : Draft K} (hconsistent : draft.registry.Consistent) (h : P draft)
    (calls : List Call) : P (draft.run calls) := by
  induction calls generalizing draft with
  | nil => exact h
  | cons call rest ih =>
      have hturn := perform_turn hconsistent call
      exact ih (hturn.consistent hconsistent) (hstep draft call _ hconsistent hturn h)

theorem run_consistent {draft : Draft K} (h : draft.registry.Consistent) (calls : List Call) :
    (draft.run calls).registry.Consistent :=
  run_induction (fun _ _ _ _ hturn hdraft => hturn.consistent hdraft) h h calls

theorem IsNew.consistent {draft : Draft K} (h : draft.IsNew) : draft.registry.Consistent := by
  obtain ⟨config, rfl⟩ := h.exists_config
  exact consistent_empty config

theorem Reachable.consistent {draft : Draft K} (h : draft.Reachable) :
    draft.registry.Consistent := by
  obtain ⟨start, calls, hnew, rfl⟩ := h
  exact run_consistent hnew.consistent calls

theorem IsNew.reachable {draft : Draft K} (h : draft.IsNew) : draft.Reachable :=
  ⟨draft, [], h, rfl⟩

theorem Reachable.run {draft : Draft K} (h : draft.Reachable) (calls : List Call) :
    (draft.run calls).Reachable := by
  obtain ⟨start, earlier, hnew, rfl⟩ := h
  exact ⟨start, earlier ++ calls, hnew, run_append start earlier calls⟩

theorem Reachable.perform {draft : Draft K} (h : draft.Reachable) (call : Call) :
    (draft.perform call).state.Reachable :=
  h.run [call]

/-- What holds of a new draft and is kept by each call holds of every draft that can be reached. -/
theorem Reachable.induction {P : Draft K → Prop} (hnew : ∀ config, P (empty config))
    (hstep : ∀ (draft : Draft K) (call : Call) (outcome : Outcome (Draft K) (Reply K)),
      draft.registry.Consistent → draft.Turn call outcome → P draft → P outcome.state)
    {draft : Draft K} (h : draft.Reachable) : P draft := by
  obtain ⟨start, calls, hstart, rfl⟩ := h
  obtain ⟨config, rfl⟩ := hstart.exists_config
  exact run_induction hstep (consistent_empty config) (hnew config) calls

/-- A draft after calls on four scopes in turn, three of which were refused. -/
def mixed : Draft .babyBear :=
  (empty {}).run
    [.secretInput (.plain "s"), .getOrRegister ⟨7⟩, .circuitInput ⟨7⟩ (.plain "x"),
      .publicInput (.member "p" .publicValue), .registerNext, .circuitInternal .firstReserved "t",
      .circuitInput .root (.plain "r"), .circuitInput ⟨9⟩ (.plain "lost"), .register ⟨7⟩,
      .addOutput ⟨7⟩ ⟨2⟩, .addOutput ⟨7⟩ ⟨1⟩, .internal "m", .register ⟨8⟩]

theorem reachable_mixed : mixed.Reachable :=
  ⟨empty {}, _, isNew_empty {}, rfl⟩

end CircuitDraft.Draft
