import CircuitDraft.Proofs.JournalHistory
import CircuitDraft.Proofs.ScopeSearch

namespace CircuitDraft.Draft

variable {K : PrimeField} {draft : Draft K} {scope : Scope} {var : Variable}

/-- A variable has been minted for some scope of the draft. -/
def Minted (draft : Draft K) (var : Variable) : Prop :=
  1 ≤ var.number.toNat ∧ var.number.toNat ≤ draft.varCount

/-- Whether a variable belongs to the scope that is registered under `id`. -/
def owns (draft : Draft K) (id : CircuitId) (var : Variable) : Bool :=
  (draft.find? id).any fun scope => scope.contains var

namespace Recorded

theorem minted_iff (h : draft.Recorded) :
    draft.Minted var ↔ ∃ entry ∈ draft.journal.toList, entry.var = var := by
  have hmem : var.number.toNat ∈ draft.journal.toList.map (·.var.number.toNat) ↔
      draft.Minted var := by
    rw [h.numbers, List.mem_range'_1, Minted]
    omega
  rw [← hmem, List.mem_map]
  constructor
  · rintro ⟨entry, hentry, hnumber⟩
    exact ⟨entry, hentry, Variable.eq_of_toNat_eq hnumber⟩
  · rintro ⟨entry, hentry, rfl⟩
    exact ⟨entry, hentry, rfl⟩

theorem nodup_vars (h : draft.Recorded) : (draft.journal.toList.map Journal.Entry.var).Nodup := by
  apply List.Nodup.of_map fun var : Variable => var.number.toNat
  rw [List.map_map]
  exact h.numbers ▸ List.nodup_range'

theorem entry_unique (h : draft.Recorded) {entry later : Journal.Entry}
    (hentry : entry ∈ draft.journal.toList) (hlater : later ∈ draft.journal.toList)
    (hvar : entry.var = later.var) : entry = later :=
  List.inj_on_of_nodup_map h.nodup_vars hentry hlater hvar

theorem mem_vars_iff (h : draft.Recorded) (hscope : scope ∈ draft.registry.toList) :
    var ∈ scope.vars ↔
      ∃ entry ∈ draft.journal.toList, entry.var = var ∧ entry.scope = scope.id := by
  rw [← Array.mem_toList_iff, ← (h.scopes scope hscope).vars, List.mem_map]
  simp only [Journal.mem_entriesOf]
  constructor
  · rintro ⟨entry, ⟨hentry, hid⟩, hvar⟩
    exact ⟨entry, hentry, hvar, hid⟩
  · rintro ⟨entry, hentry, hvar, hid⟩
    exact ⟨entry, ⟨hentry, hid⟩, hvar⟩

theorem minted_of_mem_vars (h : draft.Recorded) (hscope : scope ∈ draft.registry.toList)
    (hvar : var ∈ scope.vars) : draft.Minted var := by
  obtain ⟨entry, hentry, rfl, -⟩ := (h.mem_vars_iff hscope).mp hvar
  exact h.minted_iff.mpr ⟨entry, hentry, rfl⟩

/-- No variable belongs to two scopes. -/
theorem id_eq_of_mem_vars (h : draft.Recorded) {other : Scope}
    (hscope : scope ∈ draft.registry.toList) (hother : other ∈ draft.registry.toList)
    (hvar : var ∈ scope.vars) (hvar' : var ∈ other.vars) : scope.id = other.id := by
  obtain ⟨entry, hentry, hentryVar, hid⟩ := (h.mem_vars_iff hscope).mp hvar
  obtain ⟨later, hlater, hlaterVar, hid'⟩ := (h.mem_vars_iff hother).mp hvar'
  rw [← hid, ← hid', h.entry_unique hentry hlater (hentryVar.trans hlaterVar.symm)]

theorem exists_scope_of_minted (h : draft.Recorded) (hminted : draft.Minted var) :
    ∃ scope ∈ draft.registry.toList, var ∈ scope.vars := by
  obtain ⟨entry, hentry, hvar⟩ := h.minted_iff.mp hminted
  obtain ⟨scope, hscope, hid⟩ := List.mem_map.mp (h.registered entry hentry)
  exact ⟨scope, hscope, (h.mem_vars_iff hscope).mpr ⟨entry, hentry, hvar, hid.symm⟩⟩

/-- The variables of a scope are part of the journal, so they come in the order of the numbers. -/
theorem numbers_sublist (h : draft.Recorded) (hscope : scope ∈ draft.registry.toList) :
    (scope.vars.toList.map (·.number.toNat)).Sublist (List.range' 1 draft.varCount) := by
  rw [← h.numbers, ← (h.scopes scope hscope).vars, List.map_map]
  exact List.filter_sublist.map _

theorem ascending_filter (h : draft.Recorded) (p : Journal.Entry → Bool) :
    ((draft.journal.toList.filter p).map Journal.Entry.var).Pairwise (· < ·) := by
  have hnumbers : (draft.journal.toList.map (·.var.number.toNat)).Pairwise (· < ·) := by
    rw [h.numbers]
    exact List.pairwise_lt_range'
  rw [List.pairwise_map]
  exact ((List.pairwise_map.mp hnumbers).imp Variable.lt_iff.mpr).sublist List.filter_sublist

theorem ascending (h : draft.Recorded) (hscope : scope ∈ draft.registry.toList) :
    scope.vars.toList.Pairwise (· < ·) := by
  rw [← (h.scopes scope hscope).vars]
  exact h.ascending_filter _

theorem contains_iff (h : draft.Recorded) (hscope : scope ∈ draft.registry.toList) :
    scope.contains var = true ↔ var ∈ scope.vars := by
  apply Scope.contains_iff_mem
  exact (h.ascending hscope).imp fun hlt =>
    Variable.le_iff.mpr (Nat.le_of_lt (Variable.lt_iff.mp hlt))

/-- Who owns a variable is whom the journal says it was declared for. -/
theorem owns_iff (h : draft.Recorded) (hconsistent : draft.registry.Consistent) {id : CircuitId} :
    draft.owns id var = true ↔
      ∃ entry ∈ draft.journal.toList, entry.var = var ∧ entry.scope = id := by
  rw [owns, Option.any_eq_true]
  constructor
  · rintro ⟨scope, hscope, howned⟩
    obtain ⟨hmem, rfl⟩ := hconsistent.find?_eq_some_iff.mp hscope
    exact (h.mem_vars_iff hmem).mp ((h.contains_iff hmem).mp howned)
  · rintro ⟨entry, hentry, hvar, rfl⟩
    have hknown := hconsistent.contains_iff.mpr (h.registered entry hentry)
    obtain ⟨scope, hscope⟩ := exists_scope hconsistent hknown
    have hmem := hconsistent.mem_of_find? hscope
    refine ⟨scope, hscope, (h.contains_iff hmem).mpr ?_⟩
    exact (h.mem_vars_iff hmem).mpr
      ⟨entry, hentry, hvar, (hconsistent.id_of_find? hscope).symm⟩

theorem existsUnique_owns (h : draft.Recorded) (hconsistent : draft.registry.Consistent)
    (hminted : draft.Minted var) : ∃! id, draft.owns id var = true := by
  obtain ⟨entry, hentry, hvar⟩ := h.minted_iff.mp hminted
  refine ⟨entry.scope, (h.owns_iff hconsistent).mpr ⟨entry, hentry, hvar, rfl⟩, ?_⟩
  intro id howned
  obtain ⟨later, hlater, hlaterVar, rfl⟩ := (h.owns_iff hconsistent).mp howned
  rw [h.entry_unique hlater hentry (hlaterVar.trans hvar.symm)]

theorem size_vars_le (h : draft.Recorded) (hscope : scope ∈ draft.registry.toList) :
    scope.vars.size ≤ draft.varCount := by
  have hlength := (h.numbers_sublist hscope).length_le
  rwa [List.length_map, List.length_range', Array.length_toList] at hlength

theorem inputCount_le (h : draft.Recorded) (hscope : scope ∈ draft.registry.toList) :
    scope.inputCount ≤ scope.vars.size := by
  have hrecorded := h.scopes scope hscope
  rw [← hrecorded.inputCount, ← Array.length_toList, ← hrecorded.vars, List.length_map]
  exact List.countP_le_length

/-- The variable lists of all scopes together are the numbers from one on, each once. -/
theorem numbers_perm (h : draft.Recorded) (hconsistent : draft.registry.Consistent) :
    (draft.registry.toList.flatMap fun scope => scope.vars.toList.map (·.number.toNat)).Perm
      (List.range' 1 draft.varCount) := by
  have hnodup : (draft.registry.toList.flatMap fun scope =>
      scope.vars.toList.map (·.number.toNat)).Nodup := by
    rw [List.nodup_flatMap]
    constructor
    · intro scope hscope
      exact (h.numbers_sublist hscope).nodup List.nodup_range'
    · have hids : draft.registry.toList.Pairwise fun scope other => scope.id ≠ other.id :=
        List.pairwise_map.mp hconsistent.nodup_ids
      apply hids.imp_of_mem
      intro scope other hscope hother hne number hnumber hnumber'
      obtain ⟨var, hvar, rfl⟩ := List.mem_map.mp hnumber
      obtain ⟨var', hvar', heq⟩ := List.mem_map.mp hnumber'
      obtain rfl := Variable.eq_of_toNat_eq heq
      exact hne (h.id_eq_of_mem_vars hscope hother (Array.mem_toList_iff.mp hvar)
        (Array.mem_toList_iff.mp hvar'))
  -- Neither side repeats a number, so it is enough that they have the same ones.
  rw [List.perm_ext_iff_of_nodup hnodup List.nodup_range']
  intro number
  rw [List.mem_flatMap]
  constructor
  · rintro ⟨scope, hscope, hnumber⟩
    exact (h.numbers_sublist hscope).subset hnumber
  · intro hnumber
    rw [← h.numbers, List.mem_map] at hnumber
    obtain ⟨entry, hentry, rfl⟩ := hnumber
    obtain ⟨scope, hscope, hvar⟩ :=
      h.exists_scope_of_minted (h.minted_iff.mpr ⟨entry, hentry, rfl⟩)
    exact ⟨scope, hscope, List.mem_map.mpr ⟨entry.var, Array.mem_toList_iff.mpr hvar, rfl⟩⟩

end Recorded

/-- The scopes share out the variables: every variable that has been minted belongs to exactly one
scope, and no scope has any other, in particular not the constant-one wire. -/
structure Partitioned (draft : Draft K) : Prop where
  ascending : ∀ scope ∈ draft.registry.toList, scope.vars.toList.Pairwise (· < ·)
  numbers : (draft.registry.toList.flatMap fun scope =>
    scope.vars.toList.map (·.number.toNat)).Perm (List.range' 1 draft.varCount)
  one_notMem : ∀ scope ∈ draft.registry.toList, Variable.one ∉ scope.vars
  owner : ∀ var, draft.Minted var →
    ∃! id, ∃ scope, draft.find? id = some scope ∧ scope.contains var = true
  foreign : ∀ var, ¬ draft.Minted var →
    ∀ scope ∈ draft.registry.toList, scope.contains var = false
  one : ∀ scope ∈ draft.registry.toList, scope.one = .one
  inputCount_le : ∀ scope ∈ draft.registry.toList, scope.inputCount ≤ scope.vars.size
  size_vars_lt : ∀ scope ∈ draft.registry.toList, scope.vars.size < UInt32.size

theorem Reachable.partitioned (h : draft.Reachable) : draft.Partitioned where
  ascending _ := h.recorded.ascending
  numbers := h.recorded.numbers_perm h.consistent
  one_notMem scope hscope hone :=
    Nat.not_succ_le_zero 0 (h.recorded.minted_of_mem_vars hscope hone).1
  owner := by
    intro var hminted
    obtain ⟨scope, hscope, hvar⟩ := h.recorded.exists_scope_of_minted hminted
    refine ⟨scope.id, ⟨scope, h.consistent.find?_eq_some_iff.mpr ⟨hscope, rfl⟩,
      (h.recorded.contains_iff hscope).mpr hvar⟩, ?_⟩
    rintro id ⟨other, hother, howned⟩
    obtain ⟨hmem, rfl⟩ := h.consistent.find?_eq_some_iff.mp hother
    exact h.recorded.id_eq_of_mem_vars hmem hscope ((h.recorded.contains_iff hmem).mp howned) hvar
  foreign := by
    intro var hminted scope hscope
    rw [← Bool.not_eq_true, h.recorded.contains_iff hscope]
    exact fun hvar => hminted (h.recorded.minted_of_mem_vars hscope hvar)
  one scope hscope := (h.recorded.scopes scope hscope).one
  inputCount_le _ := h.recorded.inputCount_le
  size_vars_lt _ hscope :=
    Nat.lt_of_le_of_lt (h.recorded.size_vars_le hscope) draft.counter.count_lt

theorem partitioned_mixed :
    mixed.Reachable ∧ mixed.Partitioned ∧
      mixed.registry.toList.map (fun scope => scope.vars.toList.map (·.number.toNat)) =
        [[1, 3, 5, 6], [2], [4], []] :=
  ⟨reachable_mixed, reachable_mixed.partitioned, by decide +kernel⟩

end CircuitDraft.Draft
