import CircuitDraft.Proofs.Reachable

namespace CircuitDraft

namespace Counter

/-- The first number is not handed out again. -/
def Started (counter : Counter) : Prop :=
  counter.next ≠ some .one

variable {counter : Counter} {var : Variable}

theorem count_of_next (h : counter.Started) (hnext : counter.next = some var) :
    counter.count + 1 = var.number.toNat := by
  have hpos : var.number.toNat ≠ 0 := by
    intro hzero
    have hone : var = .one := Variable.eq_of_toNat_eq hzero
    exact h (hone ▸ hnext)
  simp only [count, hnext]
  omega

theorem count_succ? (var : Variable) : (⟨var.succ?⟩ : Counter).count = var.number.toNat := by
  cases hnext : var.succ? with
  | none =>
      have := Variable.succ?_eq_none_iff.mp hnext
      simp only [count]
      omega
  | some later =>
      have := Variable.succ?_eq_some_iff.mp hnext
      simp only [count]
      omega

theorem started_succ? (var : Variable) : (⟨var.succ?⟩ : Counter).Started := by
  intro hnext
  have := Variable.succ?_eq_some_iff.mp hnext
  simp [Variable.one] at this

theorem count_lt (counter : Counter) : counter.count < UInt32.size := by
  cases hnext : counter.next with
  | none =>
      simp only [count, hnext]
      decide
  | some var =>
      have := var.number.toNat_lt_size
      simp only [count, hnext]
      omega

end Counter

namespace Journal

/-- The entries for one scope, in order. -/
def entriesOf (journal : Journal) (id : CircuitId) : List Entry :=
  journal.toList.filter fun entry => entry.scope = id

theorem entriesOf_push_self (journal : Journal) (entry : Entry) :
    (journal.push entry).entriesOf entry.scope = journal.entriesOf entry.scope ++ [entry] := by
  simp [entriesOf]

theorem entriesOf_push_of_ne (journal : Journal) {entry : Entry} {id : CircuitId}
    (hne : entry.scope ≠ id) : (journal.push entry).entriesOf id = journal.entriesOf id := by
  simp [entriesOf, hne]

theorem mem_entriesOf {journal : Journal} {entry : Entry} {id : CircuitId} :
    entry ∈ journal.entriesOf id ↔ entry ∈ journal.toList ∧ entry.scope = id := by
  simp [entriesOf]

end Journal

namespace Scope

/-- A scope holds the variables that the journal has for it, and has counted the inputs among
them. -/
structure RecordedIn (scope : Scope) (journal : Journal) : Prop where
  vars : (journal.entriesOf scope.id).map Journal.Entry.var = scope.vars.toList
  inputCount :
    (journal.entriesOf scope.id).countP (fun entry => entry.origin.role = .input) =
      scope.inputCount
  one : scope.one = .one

variable {scope : Scope} {journal : Journal}

theorem RecordedIn.push_of_ne (h : scope.RecordedIn journal) {entry : Journal.Entry}
    (hne : entry.scope ≠ scope.id) : scope.RecordedIn (journal.push entry) where
  vars := by
    rw [journal.entriesOf_push_of_ne hne]
    exact h.vars
  inputCount := by
    rw [journal.entriesOf_push_of_ne hne]
    exact h.inputCount
  one := h.one

theorem RecordedIn.record (h : scope.RecordedIn journal) {entry : Journal.Entry}
    (hscope : entry.scope = scope.id) :
    (scope.record entry.origin.role entry.var).RecordedIn (journal.push entry) where
  vars := by
    rw [id_record, ← hscope, journal.entriesOf_push_self, List.map_append, hscope, h.vars]
    simp
  inputCount := by
    rw [id_record, ← hscope, journal.entriesOf_push_self, List.countP_append, hscope, h.inputCount,
      List.countP_singleton]
    simp only [Scope.record, decide_eq_true_eq]
    split <;> rfl
  one := h.one

theorem RecordedIn.mark (h : scope.RecordedIn journal) (var : Variable) :
    (scope.mark var).RecordedIn journal :=
  ⟨h.vars, h.inputCount, h.one⟩

theorem recordedIn_empty {id : CircuitId} (hnone : ∀ entry ∈ journal.toList, entry.scope ≠ id) :
    (empty id).RecordedIn journal := by
  have hentries : journal.entriesOf id = [] :=
    List.filter_eq_nil_iff.mpr fun entry hentry => by simpa using hnone entry hentry
  constructor <;> simp [empty, hentries]

end Scope

namespace Draft

variable {K : PrimeField} {draft : Draft K}

/-- The journal numbers the variables without gaps, and the scopes and the list of public inputs
follow from it. -/
structure Recorded (draft : Draft K) : Prop where
  started : draft.counter.Started
  numbers : draft.journal.toList.map (·.var.number.toNat) = List.range' 1 draft.varCount
  scopes : ∀ scope ∈ draft.registry.toList, scope.RecordedIn draft.journal
  registered : ∀ entry ∈ draft.journal.toList, entry.scope ∈ draft.registry.ids
  rootOnly : ∀ entry ∈ draft.journal.toList,
    entry.origin = .secretInput ∨ entry.origin = .publicInput → entry.scope = .root
  publicInputs : (draft.journal.toList.filter fun entry => entry.origin = .publicInput).map
    Journal.Entry.var = draft.publicInputs.vars.toList

theorem Recorded.length_journal (h : draft.Recorded) : draft.journal.toList.length = draft.varCount := by
  have hlength := congrArg List.length h.numbers
  rwa [List.length_map, List.length_range'] at hlength

theorem recorded_empty (config : Config) : (empty config : Draft K).Recorded where
  started := Counter.started_succ? .one
  numbers := rfl
  scopes := by
    intro scope hscope
    obtain rfl := List.mem_singleton.mp hscope
    exact Scope.recordedIn_empty nofun
  registered := nofun
  rootOnly := nofun
  publicInputs := rfl

theorem Recorded.enter (h : draft.Recorded) (hconsistent : draft.registry.Consistent)
    {entry : Journal.Entry} (hnext : draft.counter.next = some entry.var)
    (hknown : draft.registry.contains entry.scope = true)
    (hroot : entry.origin = .secretInput ∨ entry.origin = .publicInput → entry.scope = .root) :
    (draft.enter entry).Recorded where
  started := Counter.started_succ? entry.var
  numbers := by
    have hbefore : draft.varCount + 1 = entry.var.number.toNat :=
      Counter.count_of_next h.started hnext
    have hafter : (draft.enter entry).varCount = draft.varCount + 1 :=
      (Counter.count_succ? entry.var).trans hbefore.symm
    have hlast : 1 + draft.varCount = entry.var.number.toNat := by omega
    rw [hafter, List.range'_1_concat, hlast, ← h.numbers]
    simp [Draft.enter]
  scopes := by
    intro scope hscope
    simp only [Draft.enter, hconsistent.toList_update, List.mem_map] at hscope
    obtain ⟨before, hbefore, rfl⟩ := hscope
    split
    · next hid => exact (h.scopes before hbefore).record hid.symm
    · next hid => exact (h.scopes before hbefore).push_of_ne fun heq => hid heq.symm
  registered := by
    intro e he
    simp only [Draft.enter, Journal.toList_push, List.mem_append, List.mem_singleton] at he
    rw [ids_enter hconsistent]
    rcases he with he | rfl
    · exact h.registered e he
    · exact hconsistent.contains_iff.mp hknown
  rootOnly := by
    intro e he
    simp only [Draft.enter, Journal.toList_push, List.mem_append, List.mem_singleton] at he
    rcases he with he | rfl
    · exact h.rootOnly e he
    · exact hroot
  publicInputs := by
    simp only [Draft.enter, Journal.toList_push, List.filter_append, List.map_append,
      h.publicInputs, List.filter_singleton]
    by_cases horigin : entry.origin = .publicInput <;> simp [horigin, PublicInputs.push]

theorem Recorded.enroll (h : draft.Recorded) (hconsistent : draft.registry.Consistent)
    {id : CircuitId} (hfree : draft.registry.contains id = false) (next : Option CircuitId) :
    (draft.enroll id next).Recorded where
  started := h.started
  numbers := h.numbers
  scopes := by
    intro scope hscope
    simp only [Draft.enroll, Registry.toList_enroll, List.mem_append, List.mem_singleton] at hscope
    rcases hscope with hscope | rfl
    · exact h.scopes scope hscope
    · -- Entries name registered scopes only, so none names the one that was added.
      apply Scope.recordedIn_empty
      rintro entry hentry rfl
      exact hconsistent.contains_eq_false_iff.mp hfree (h.registered entry hentry)
  registered := by
    intro entry hentry
    simp only [Draft.enroll, Registry.ids_enroll]
    exact List.mem_append_left _ (h.registered entry hentry)
  rootOnly := h.rootOnly
  publicInputs := h.publicInputs

theorem Recorded.mark (h : draft.Recorded) (hconsistent : draft.registry.Consistent)
    (id : CircuitId) (var : Variable) : (draft.mark id var).Recorded where
  started := h.started
  numbers := h.numbers
  scopes := by
    intro scope hscope
    simp only [Draft.mark, hconsistent.toList_update, List.mem_map] at hscope
    obtain ⟨before, hbefore, rfl⟩ := hscope
    split
    · exact (h.scopes before hbefore).mark var
    · exact h.scopes before hbefore
  registered := by
    intro entry hentry
    rw [ids_mark hconsistent]
    exact h.registered entry hentry
  rootOnly := h.rootOnly
  publicInputs := h.publicInputs

/-- Secret and public inputs are declared by calls on the circuit as a whole only. -/
theorem scope_eq_root {call : Call} {d : Declaration} (hd : call.declaration? = some d)
    (horigin : d.origin = .secretInput ∨ d.origin = .publicInput) : d.scope = .root := by
  cases call with
  | secretInput leaf | publicInput leaf | internal label =>
      cases hd
      rfl
  | circuitInput id leaf | circuitInternal id label =>
      cases hd
      simp at horigin
  | register id | registerNext | getOrRegister id | addOutput id var => cases hd

theorem Turn.recorded {call : Call} {outcome : Outcome (Draft K) (Reply K)}
    (hturn : draft.Turn call outcome) (hconsistent : draft.registry.Consistent)
    (h : draft.Recorded) : outcome.state.Recorded := by
  cases hturn with
  | refused _ => exact h
  | declared hd hknown hnext => exact h.enter hconsistent hnext hknown (scope_eq_root hd)
  | registered _ hfree => exact h.enroll hconsistent hfree _
  | added _ hfree => exact h.enroll hconsistent hfree _
  | present _ _ => exact h
  | issued hnext => exact h.enroll hconsistent (hconsistent.next_free hnext).2 _
  | marked _ _ => exact h.mark hconsistent _ _

theorem Reachable.recorded (h : draft.Reachable) : draft.Recorded :=
  h.induction recorded_empty fun _ _ _ hconsistent hturn => hturn.recorded hconsistent

/-- The journal is an exact history of the declarations: it has one entry for each variable in the
order of the numbers, and the scopes, their input counts and the public inputs can be read off it. -/
structure ExactJournal (draft : Draft K) : Prop where
  size : draft.journal.size = draft.varCount
  numbered : ∀ i entry, draft.journal.toList[i]? = some entry → entry.var.number.toNat = i + 1
  vars : ∀ id scope, draft.find? id = some scope →
    (draft.journal.entriesOf id).map Journal.Entry.var = scope.vars.toList
  inputCount : ∀ id scope, draft.find? id = some scope →
    (draft.journal.entriesOf id).countP (fun entry =>
      entry.origin = .secretInput ∨ entry.origin = .publicInput ∨ entry.origin = .circuitInput) =
        scope.inputCount
  registered : ∀ entry ∈ draft.journal.toList, ∃ scope, draft.find? entry.scope = some scope
  rootOnly : ∀ entry ∈ draft.journal.toList,
    entry.origin = .secretInput ∨ entry.origin = .publicInput → entry.scope = .root
  publicInputs : (draft.journal.toList.filter fun entry => entry.origin = .publicInput).map
    Journal.Entry.var = draft.publicInputs.vars.toList

theorem Reachable.exactJournal (h : draft.Reachable) : draft.ExactJournal where
  size := by
    have hlength := congrArg List.length h.recorded.numbers
    rwa [List.length_map, List.length_range'] at hlength
  numbered := by
    intro i entry hentry
    have hnumber := congrArg (·[i]?) h.recorded.numbers
    simp only [List.getElem?_map, hentry, Option.map_some] at hnumber
    obtain ⟨_, hi⟩ := List.getElem?_eq_some_iff.mp hnumber.symm
    rw [List.getElem_range'] at hi
    omega
  vars := by
    intro id scope hscope
    obtain ⟨hmem, rfl⟩ := h.consistent.find?_eq_some_iff.mp hscope
    exact (h.recorded.scopes scope hmem).vars
  inputCount := by
    intro id scope hscope
    obtain ⟨hmem, rfl⟩ := h.consistent.find?_eq_some_iff.mp hscope
    rw [← (h.recorded.scopes scope hmem).inputCount]
    apply List.countP_congr
    intro entry _
    cases entry.origin <;> simp [Origin.role]
  registered := by
    intro entry hentry
    exact exists_scope h.consistent
      (h.consistent.contains_iff.mpr (h.recorded.registered entry hentry))
  rootOnly := h.recorded.rootOnly
  publicInputs := h.recorded.publicInputs

theorem exactJournal_mixed :
    mixed.Reachable ∧ mixed.ExactJournal ∧
      mixed.journal.toList.map Journal.Entry.scope =
        [.root, ⟨7⟩, .root, .firstReserved, .root, .root] :=
  ⟨reachable_mixed, reachable_mixed.exactJournal, by decide +kernel⟩

end Draft

end CircuitDraft
