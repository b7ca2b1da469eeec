import CircuitDraft.Proofs.CallHistory
import CircuitDraft.Proofs.ScopePartition

/-!
The report on given variables: what its lines say, for any journal, and that for the journal of a
draft they say what the calls and the scopes do.
-/

namespace CircuitDraft

namespace Journal

variable {journal : Journal} {entry : Entry} {var : Variable}

/-- The line for the constant-one wire. -/
def oneLine (var : Variable) : String :=
  "  " ++ var.text ++ " = constant-one wire"

def missingLine (var : Variable) : String :=
  "  " ++ var.text ++ " not found in allocation log"

def foundLine (entry : Entry) : String :=
  "  " ++ entry.var.text ++ " = " ++ entry.origin.text ++ ", label='" ++ entry.label ++
    "', scope=" ++ entry.scope.text

theorem oneLine_ne_missingLine (var : Variable) : oneLine var ≠ missingLine var := by
  rw [oneLine, missingLine, Ne, String.append_right_inj]
  decide

/-- After the variable comes the equals sign, and then no origin begins as the constant does. -/
theorem foundLine_ne_oneLine (entry : Entry) : foundLine entry ≠ oneLine entry.var := by
  have hsplit : oneLine entry.var = "  " ++ entry.var.text ++ (" = " ++ "constant-one wire") := rfl
  rw [foundLine, hsplit]
  simp only [String.append_assoc, Ne, String.append_right_inj]
  intro h
  have hlists := congrArg String.toList h
  cases horigin : entry.origin <;> simp [horigin, Origin.text] at hlists

theorem foundLine_ne_missingLine (entry : Entry) : foundLine entry ≠ missingLine entry.var := by
  rw [foundLine, missingLine]
  simp only [String.append_assoc, Ne, String.append_right_inj]
  intro h
  have hlists := congrArg String.toList h
  simp at hlists

/-- The line that a journal has for a variable. The entry of the variable is the first that names it,
and for the constant-one wire it makes no difference what the journal holds. -/
inductive LineFor (journal : Journal) : Variable → String → Prop
  | one : LineFor journal .one (oneLine .one)
  | found {entry : Entry} {before after : List Entry} (hne : entry.var ≠ .one)
      (hsplit : journal.toList = before ++ entry :: after)
      (hfirst : ∀ earlier ∈ before, earlier.var ≠ entry.var) :
      LineFor journal entry.var (foundLine entry)
  | missing {var : Variable} (hne : var ≠ .one) (hnone : ∀ entry ∈ journal.toList, entry.var ≠ var) :
      LineFor journal var (missingLine var)

/-- The journal without its entries for the constant-one wire, should it have any. -/
def withoutOne (journal : Journal) : Journal :=
  ⟨journal.entries.filter fun entry => entry.var ≠ .one⟩

theorem entryOf?_eq (journal : Journal) (var : Variable) :
    journal.entryOf? var = journal.toList.find? fun entry => entry.var = var :=
  Array.find?_toList.symm

theorem variableLine_one (journal : Journal) : journal.variableLine .one = oneLine .one := by
  rw [variableLine, if_pos rfl, oneLine]

theorem variableLine_of_some (hne : var ≠ .one) (hentry : journal.entryOf? var = some entry) :
    journal.variableLine var = foundLine entry := by
  rw [variableLine, if_neg hne, hentry, foundLine]

theorem variableLine_of_none (hne : var ≠ .one) (hnone : journal.entryOf? var = none) :
    journal.variableLine var = missingLine var := by
  rw [variableLine, if_neg hne, hnone, missingLine]

theorem var_of_entryOf? (hentry : journal.entryOf? var = some entry) : entry.var = var := by
  rw [entryOf?_eq] at hentry
  simpa using List.find?_some hentry

theorem lineFor_variableLine (journal : Journal) (var : Variable) :
    journal.LineFor var (journal.variableLine var) := by
  by_cases hone : var = .one
  · rw [hone, variableLine_one]
    exact .one
  · cases hentry : journal.entryOf? var with
    | none =>
        rw [variableLine_of_none hone hentry]
        rw [entryOf?_eq, List.find?_eq_none] at hentry
        exact .missing hone fun entry hmem => by simpa using hentry entry hmem
    | some entry =>
        rw [variableLine_of_some hone hentry]
        obtain rfl := var_of_entryOf? hentry
        rw [entryOf?_eq, List.find?_eq_some_iff_append] at hentry
        obtain ⟨-, before, after, hsplit, hfirst⟩ := hentry
        exact .found hone hsplit fun earlier hearlier => by simpa using hfirst earlier hearlier

theorem variableLine_withoutOne (journal : Journal) (var : Variable) :
    journal.withoutOne.variableLine var = journal.variableLine var := by
  by_cases hone : var = .one
  · rw [hone, variableLine_one, variableLine_one]
  · have hentry : journal.withoutOne.entryOf? var = journal.entryOf? var := by
      rw [entryOf?_eq, entryOf?_eq, toList, withoutOne, Array.toList_filter, List.find?_filter]
      -- The entries that are left out would not have been a match.
      refine congrArg (fun p => List.find? p journal.toList) (funext fun entry => ?_)
      by_cases hvar : entry.var = var
      · simp [hvar, hone]
      · simp [hvar]
    rw [variableLine, variableLine, hentry]

/-- A report opens with a heading, closes with a line of its own, and has between them one line for
each of the variables, in their order. -/
def ReportsWith (P : Variable → String → Prop) (vars : List Variable) (report : List String) : Prop :=
  ∃ lines : List String, List.Forall₂ P vars lines ∧ report =
    ("=== Allocation Info for Variables [" ++ ", ".intercalate (vars.map Variable.longText) ++
      "] ===") :: lines ++ ["=== End Variable Info ===\n"]

theorem reportsWith_variableReport {P : Variable → String → Prop}
    (hline : ∀ var, P var (journal.variableLine var)) (vars : List Variable) :
    ReportsWith P vars (journal.variableReport vars) := by
  refine ⟨vars.map journal.variableLine, ?_, rfl⟩
  rw [List.forall₂_map_right_iff, List.forall₂_same]
  exact fun var _ => hline var

/-- A report on variables has a line for each, which is that of the first entry for the variable. What
is entered for the constant-one wire makes no difference. -/
structure ReportsFirstEntries (journal : Journal) : Prop where
  firstEntry : ∀ vars : List Variable,
    ReportsWith journal.LineFor vars (journal.variableReport vars)
  withoutOne : ∀ vars : List Variable,
    journal.withoutOne.variableReport vars = journal.variableReport vars

theorem reportsFirstEntries (journal : Journal) : journal.ReportsFirstEntries where
  firstEntry := reportsWith_variableReport journal.lineFor_variableLine
  withoutOne vars := by
    rw [variableReport, variableReport,
      List.map_congr_left fun var _ => journal.variableLine_withoutOne var]

end Journal

namespace Draft

variable {K : PrimeField} {draft start : Draft K} {var : Variable}

/-- The calls of a history that were answered with a variable. -/
def minters (history : List (Call × Except BuildError (Reply K))) (var : Variable) : List Call :=
  (history.filter fun step => step.2 = .ok (.expr (.ofVariable var))).map Prod.fst

/-- The line for a variable says what is so in a draft that has the given history. A variable of the
draft comes from one call and has one owner, and both are the line's. -/
structure SaysOf (draft : Draft K) (history : List (Call × Except BuildError (Reply K)))
    (var : Variable) (line : String) : Prop where
  one_iff : line = Journal.oneLine var ↔ var = .one
  missing_iff : line = Journal.missingLine var ↔ draft.varCount < var.number.toNat
  minted : draft.Minted var → ∃ call d, minters history var = [call] ∧
    call.declaration? = some d ∧ (∀ id, draft.owns id var = true ↔ id = d.scope) ∧
      line = Journal.foundLine (d.entry var)

theorem ne_one_of_minted (hminted : draft.Minted var) : var ≠ .one := by
  rintro rfl
  exact Nat.not_succ_le_zero 0 hminted.1

theorem minted_iff_of_ne_one (hne : var ≠ .one) :
    draft.Minted var ↔ ¬ draft.varCount < var.number.toNat := by
  have hpos : var.number.toNat ≠ 0 := fun hzero => hne (Variable.eq_of_toNat_eq hzero)
  rw [Minted]
  omega

namespace Recorded

variable {entry : Journal.Entry}

theorem entryOf?_eq_some (h : draft.Recorded) (hentry : entry ∈ draft.journal.toList) :
    draft.journal.entryOf? entry.var = some entry := by
  have hsome : (draft.journal.entryOf? entry.var).isSome := by
    rw [Journal.entryOf?_eq, List.find?_isSome]
    exact ⟨entry, hentry, decide_eq_true rfl⟩
  obtain ⟨found, hfound⟩ := Option.isSome_iff_exists.mp hsome
  have hmem : found ∈ draft.journal.toList := by
    rw [Journal.entryOf?_eq] at hfound
    exact List.mem_of_find?_eq_some hfound
  rw [hfound, h.entry_unique hmem hentry (Journal.var_of_entryOf? hfound)]

theorem entryOf?_eq_none (h : draft.Recorded) (hminted : ¬ draft.Minted var) :
    draft.journal.entryOf? var = none := by
  rw [Journal.entryOf?_eq, List.find?_eq_none]
  intro entry hentry
  simpa using fun hvar => hminted (h.minted_iff.mpr ⟨entry, hentry, hvar⟩)

theorem countP_var (h : draft.Recorded) (hminted : draft.Minted var) :
    draft.journal.toList.countP (fun entry => entry.var = var) = 1 := by
  have hmem : var ∈ draft.journal.toList.map Journal.Entry.var :=
    List.mem_map.mpr (h.minted_iff.mp hminted)
  rw [← List.count_eq_one_of_mem h.nodup_vars hmem, List.count, List.countP_map]
  exact List.countP_congr fun entry _ => by simp

end Recorded

/-- A step of a history makes the entry of a variable by being answered with it. -/
theorem Reachable.makes_entry_iff (h : draft.Reachable) {calls : List Call}
    {step : Call × Except BuildError (Reply K)} (hstep : step ∈ draft.history calls) :
    ((entryMade? step).map fun entry => decide (entry.var = var)).getD false = true ↔
      step.2 = .ok (.expr (.ofVariable var)) := by
  obtain ⟨call, answer⟩ := step
  constructor
  · intro hmade
    cases hentry : entryMade? (call, answer) with
    | none =>
        rw [hentry] at hmade
        cases hmade
    | some entry =>
        rw [hentry] at hmade
        obtain rfl : entry.var = var := of_decide_eq_true hmade
        obtain ⟨d, -, -, hanswer, -⟩ := entryMade?_eq_some_iff.mp hentry
        exact hanswer
  · rintro rfl
    obtain ⟨d, hd, hne⟩ := declared_of_mem_history h hstep
    have hentry : entryMade? (call, .ok (.expr (.ofVariable var) : Reply K)) = some (d.entry var) :=
      entryMade?_eq_some_iff.mpr ⟨d, hd, rfl, rfl, hne⟩
    rw [hentry]
    exact decide_eq_true rfl

theorem mem_minters_iff {history : List (Call × Except BuildError (Reply K))} {call : Call} :
    call ∈ minters history var ↔ (call, .ok (.expr (.ofVariable var))) ∈ history := by
  simp [minters]

/-- A variable is minted once, as it is entered once. -/
theorem IsNew.length_minters (hnew : start.IsNew) (calls : List Call)
    (hminted : (start.run calls).Minted var) :
    (minters (start.history calls) var).length = 1 := by
  have hrecorded := (hnew.reachable.run calls).recorded
  -- Steps of the history that mint the variable and entries that name it are counted alike.
  rw [minters, List.length_map, ← List.countP_eq_length_filter, ← hrecorded.countP_var hminted,
    hnew.run_journal, List.countP_filterMap]
  refine List.countP_congr fun step hstep => ?_
  rw [hnew.reachable.makes_entry_iff hstep, decide_eq_true_iff]

theorem IsNew.exists_minter (hnew : start.IsNew) (calls : List Call)
    (hminted : (start.run calls).Minted var) :
    ∃ call d, minters (start.history calls) var = [call] ∧ call.declaration? = some d ∧
      d.entry var ∈ (start.run calls).journal.toList := by
  obtain ⟨call, hcall⟩ := List.length_eq_one_iff.mp (hnew.length_minters calls hminted)
  have hstep : (call, .ok (.expr (.ofVariable var))) ∈ start.history calls :=
    mem_minters_iff.mp (hcall ▸ List.mem_singleton_self call)
  obtain ⟨d, hd, -⟩ := declared_of_mem_history hnew.reachable hstep
  exact ⟨call, d, hcall, hd, (hnew.mem_journal_iff calls).mpr ⟨call, d, hd, rfl, hstep⟩⟩

theorem IsNew.saysOf (hnew : start.IsNew) (calls : List Call) (var : Variable) :
    SaysOf (start.run calls) (start.history calls) var
      ((start.run calls).journal.variableLine var) := by
  have hreachable := hnew.reachable.run calls
  have hrecorded := hreachable.recorded
  by_cases hone : var = .one
  · subst hone
    rw [Journal.variableLine_one]
    exact
      { one_iff := iff_of_true rfl rfl
        missing_iff := iff_of_false (Journal.oneLine_ne_missingLine _) (Nat.not_lt_zero _)
        minted := fun hminted => absurd rfl (ne_one_of_minted hminted) }
  · by_cases hminted : (start.run calls).Minted var
    · obtain ⟨call, d, hcall, hd, hentry⟩ := hnew.exists_minter calls hminted
      have howner : ∀ id, (start.run calls).owns id var = true ↔ id = d.scope := by
        intro id
        rw [hrecorded.owns_iff hreachable.consistent]
        constructor
        · rintro ⟨entry, hmem, hvar, rfl⟩
          rw [hrecorded.entry_unique hmem hentry hvar]
          rfl
        · rintro rfl
          exact ⟨d.entry var, hentry, rfl, rfl⟩
      rw [Journal.variableLine_of_some hone (hrecorded.entryOf?_eq_some hentry)]
      exact
        { one_iff := iff_of_false (Journal.foundLine_ne_oneLine (d.entry var)) hone
          missing_iff := iff_of_false (Journal.foundLine_ne_missingLine (d.entry var))
            ((minted_iff_of_ne_one hone).mp hminted)
          minted := fun _ => ⟨call, d, hcall, hd, howner, rfl⟩ }
    · have habove := not_not.mp (mt (minted_iff_of_ne_one hone).mpr hminted)
      rw [Journal.variableLine_of_none hone (hrecorded.entryOf?_eq_none hminted)]
      exact
        { one_iff := iff_of_false (Journal.oneLine_ne_missingLine var).symm hone
          missing_iff := iff_of_true rfl habove
          minted := fun h => absurd h hminted }

/-- After any calls, the report on variables has a line for each which agrees with what the calls have
done and with who owns what. -/
def ReportsVariables (start : Draft K) : Prop :=
  ∀ (calls : List Call) (vars : List Variable),
    Journal.ReportsWith (SaysOf (start.run calls) (start.history calls)) vars
      ((start.run calls).variableReport vars)

theorem IsNew.reportsVariables (hnew : start.IsNew) :
    start.ReportsVariables ∧ ∀ journal : Journal, journal.ReportsFirstEntries :=
  ⟨fun calls => Journal.reportsWith_variableReport (hnew.saysOf calls), Journal.reportsFirstEntries⟩

theorem reportsVariables_repeated :
    (empty {} : Draft .babyBear).IsNew ∧ (empty {} : Draft .babyBear).ReportsVariables ∧
      (∀ journal : Journal, journal.ReportsFirstEntries) ∧
      mixed.variableReport [⟨2⟩, .one, ⟨9⟩, ⟨2⟩] =
        ["=== Allocation Info for Variables [Variable(2), Variable(0), Variable(9), Variable(2)] ===",
          "  v2 = SubCircuitInput, label='x', scope=sc7", "  v0 = constant-one wire",
          "  v9 not found in allocation log", "  v2 = SubCircuitInput, label='x', scope=sc7",
          "=== End Variable Info ===\n"] ∧
      Journal.variableReport ⟨#[⟨.one, .internal, "never", .root⟩, ⟨⟨3⟩, .internal, "first", ⟨7⟩⟩,
          ⟨⟨3⟩, .publicInput, "second", .root⟩]⟩ [.one, ⟨3⟩] =
        ["=== Allocation Info for Variables [Variable(0), Variable(3)] ===",
          "  v0 = constant-one wire", "  v3 = Internal, label='first', scope=sc7",
          "=== End Variable Info ===\n"] :=
  have h := (isNew_empty {} : (empty {} : Draft .babyBear).IsNew).reportsVariables
  ⟨isNew_empty {}, h.1, h.2, by decide +kernel, by decide +kernel⟩

end Draft

end CircuitDraft
