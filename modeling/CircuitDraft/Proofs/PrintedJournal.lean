import Mathlib.Algebra.Ring.Nat
import Mathlib.Data.List.Perm.Basic
import CircuitDraft.Proofs.FirstOccurrences
import CircuitDraft.Proofs.ScopePartition

/-!
The report on a journal, as it is printed: each entry has one line in it, under the heading of its
scope and of its origin, and the numbers in the headings add up.
-/

namespace CircuitDraft

/-- Sorted by different keys that all members have one of, a list loses nothing and repeats nothing. -/
theorem flatMap_filter_perm {α κ : Type} [DecidableEq κ] (keyOf : α → κ) {keys : List κ}
    (hnodup : keys.Nodup) {xs : List α} (hcovered : ∀ x ∈ xs, keyOf x ∈ keys) :
    (keys.flatMap fun key => xs.filter fun x => keyOf x = key).Perm xs := by
  induction keys generalizing xs with
  | nil =>
      have hnone : xs = [] := List.eq_nil_iff_forall_not_mem.mpr fun x hx => nomatch hcovered x hx
      rw [hnone]
      exact .nil
  | cons key rest ih =>
      obtain ⟨hhead, hrest⟩ := List.nodup_cons.mp hnodup
      have hcovers : ∀ x ∈ xs.filter (fun x => !decide (keyOf x = key)), keyOf x ∈ rest := by
        intro x hx
        obtain ⟨hmem, hne⟩ := List.mem_filter.mp hx
        exact (List.mem_cons.mp (hcovered x hmem)).resolve_left (by simpa using hne)
      -- Taking out the members with the first key leaves those with another one as they are.
      have hothers : (rest.flatMap fun other => xs.filter fun x => keyOf x = other) =
          rest.flatMap fun other => (xs.filter fun x => !decide (keyOf x = key)).filter
            fun x => keyOf x = other := by
        refine List.flatMap_congr fun other hother => ?_
        rw [List.filter_filter]
        refine List.filter_congr fun x _ => ?_
        by_cases hkey : keyOf x = other
        · have hne : keyOf x ≠ key := by
            rintro rfl
            exact hhead (hkey ▸ hother)
          simp [hkey, hkey ▸ hne]
        · simp [hkey]
      rw [List.flatMap_cons, hothers]
      exact ((ih hrest hcovers).append_left _).trans (List.filter_append_perm _ xs)

namespace Journal

theorem mem_groupOrder (origin : Origin) : origin ∈ groupOrder := by
  cases origin <;> decide

theorem Section.perm_groups (s : Section) : (s.groups.flatMap Group.entries).Perm s.entries := by
  have hall : s.groups.flatMap Group.entries =
      groupOrder.flatMap fun origin => s.entries.filter fun entry => entry.origin = origin := by
    rw [groups]
    generalize groupOrder = origins
    induction origins with
    | nil => rfl
    | cons origin rest ih =>
        rw [List.map_cons, List.filter_cons, List.flatMap_cons, ← ih]
        split
        · rfl
        · next hempty =>
          have hnil : (s.entries.filter fun entry => entry.origin = origin) = [] := by
            simpa using hempty
          rw [hnil, List.nil_append]
  rw [hall]
  exact flatMap_filter_perm Entry.origin (by decide) fun entry _ => mem_groupOrder entry.origin

theorem perm_sections (journal : Journal) :
    (journal.sections.flatMap Section.entries).Perm journal.toList := by
  rw [sections, List.flatMap_map]
  refine flatMap_filter_perm Entry.scope (nodup_eraseDups _) fun entry hentry => ?_
  exact List.mem_eraseDups.mpr (List.mem_map_of_mem hentry)

theorem mem_scopes_iff {journal : Journal} {id : CircuitId} :
    id ∈ journal.scopes ↔ ∃ entry ∈ journal.toList, entry.scope = id := by
  rw [scopes, List.mem_eraseDups, List.mem_map]

theorem entries_ne_nil {journal : Journal} {s : Section} (hs : s ∈ journal.sections) :
    s.entries ≠ [] := by
  obtain ⟨id, hid, rfl⟩ := List.mem_map.mp hs
  obtain ⟨entry, hentry, hscope⟩ := mem_scopes_iff.mp hid
  exact List.ne_nil_of_mem (List.mem_filter.mpr ⟨hentry, decide_eq_true hscope⟩)

/-- The number of lines that a group has for its entries. -/
def Group.lineCount (group : Group) : Nat :=
  (group.entries.map entryLine).length

/-- A group as it is printed, the number of its lines in the heading. -/
def Group.printed (group : Group) : List String :=
  (group.origin.text ++ " (" ++ Nat.repr group.lineCount ++ "):") :: group.entries.map entryLine

theorem Group.lineCount_eq_length (group : Group) : group.lineCount = group.entries.length :=
  List.length_map entryLine

theorem Group.lines_eq_printed (group : Group) : group.lines = group.printed := by
  rw [lines, printed, lineCount_eq_length]

/-- A section with its entries in groups. -/
structure PrintedSection where
  scope : CircuitId
  groups : List Group

namespace PrintedSection

/-- The number that a section is headed with, the sum of those of its groups. -/
def total (s : PrintedSection) : Nat :=
  (s.groups.map Group.lineCount).sum

def entries (s : PrintedSection) : List Entry :=
  s.groups.flatMap Group.entries

def printed (s : PrintedSection) : List String :=
  ["=== Allocation Log for scope " ++ s.scope.text ++ " ===",
    "Total allocations in scope: " ++ Nat.repr s.total ++ "\n"] ++
    s.groups.flatMap Group.printed ++ ["=== End Scope Log ===\n"]

/-- A report of sections, whose number of entries is the sum of the numbers of the sections. -/
def report (sections : List PrintedSection) : List String :=
  ["=== Circuit Allocation Log ===",
    "Total allocations: " ++ Nat.repr (sections.map total).sum ++ "\n"] ++
    sections.flatMap printed ++ ["=== End Allocation Log ===\n"]

theorem total_eq_length (s : PrintedSection) : s.total = s.entries.length := by
  rw [total, entries, List.length_flatMap]
  exact congrArg List.sum (List.map_congr_left fun group _ => group.lineCount_eq_length)

end PrintedSection

def Section.toPrinted (s : Section) : PrintedSection :=
  ⟨s.scope, s.groups⟩

theorem Section.perm_entries (s : Section) : s.toPrinted.entries.Perm s.entries :=
  s.perm_groups

theorem Section.lines_eq_printed {s : Section} (hs : s.entries ≠ []) :
    s.lines = s.toPrinted.printed := by
  have htotal : s.entries.length = s.toPrinted.total := by
    rw [PrintedSection.total_eq_length, s.perm_entries.length_eq]
  have hgroups : s.groups.flatMap Group.lines = s.groups.flatMap Group.printed :=
    List.flatMap_congr fun group _ => group.lines_eq_printed
  rw [lines, if_neg (by simpa using hs), htotal, hgroups]
  rfl

def printedSections (journal : Journal) : List PrintedSection :=
  journal.sections.map Section.toPrinted

theorem perm_printedSections (journal : Journal) :
    (journal.printedSections.flatMap PrintedSection.entries).Perm journal.toList := by
  rw [printedSections, List.flatMap_map]
  exact (List.Perm.flatMap_left _ fun s _ => s.perm_entries).trans journal.perm_sections

theorem report_eq_printed (journal : Journal) :
    journal.report = PrintedSection.report journal.printedSections := by
  have hsize : journal.size = (journal.printedSections.map PrintedSection.total).sum := by
    have htotals : journal.printedSections.map PrintedSection.total =
        journal.printedSections.map fun s => s.entries.length :=
      List.map_congr_left fun s _ => s.total_eq_length
    rw [htotals, ← List.length_flatMap, journal.perm_printedSections.length_eq]
    exact Array.length_toList.symm
  have hsections : journal.sections.flatMap Section.lines =
      journal.printedSections.flatMap PrintedSection.printed := by
    rw [printedSections, List.flatMap_map]
    exact List.flatMap_congr fun s hs => Section.lines_eq_printed (entries_ne_nil hs)
  rw [report, hsize, hsections]
  rfl

/-- Entries have the only lines of a report that are indented. -/
def isEntryLine (line : String) : Bool :=
  line.toList.head? = some ' '

theorem isEntryLine_entryLine (entry : Entry) : isEntryLine (entryLine entry) = true := by
  rw [entryLine]
  split <;> simp [isEntryLine]

theorem Group.filter_printed (group : Group) :
    group.printed.filter isEntryLine = group.entries.map entryLine := by
  have hheading : isEntryLine (group.origin.text ++ " (" ++
      Nat.repr group.lineCount ++ "):") = false := by
    cases group.origin <;> simp [isEntryLine, Origin.text]
  rw [printed, List.filter_cons_of_neg (by simpa using hheading), List.filter_eq_self]
  exact List.forall_mem_map.mpr fun entry _ => isEntryLine_entryLine entry

namespace PrintedSection

theorem filter_printed (s : PrintedSection) :
    s.printed.filter isEntryLine = s.entries.map entryLine := by
  simp [printed, entries, isEntryLine, List.filter_flatMap, List.map_flatMap, Group.filter_printed]

theorem filter_report (sections : List PrintedSection) :
    (report sections).filter isEntryLine = (sections.flatMap entries).map entryLine := by
  simp [report, isEntryLine, List.filter_flatMap, List.map_flatMap, filter_printed]

end PrintedSection

theorem head?_ne_of_mem_printed {group : Group} {line : String} (hline : line ∈ group.printed) :
    line.toList.head? ≠ some '\n' := by
  rcases List.mem_cons.mp hline with rfl | hentry
  · cases group.origin <;> simp [Origin.text]
  · obtain ⟨entry, -, rfl⟩ := List.mem_map.mp hentry
    have hindented := of_decide_eq_true (isEntryLine_entryLine entry)
    rw [hindented]
    decide

/-- The notice that a scope has no entries would open with a line break, which no line of a report
does. -/
theorem PrintedSection.head?_ne_of_mem_report {sections : List PrintedSection} {line : String}
    (hline : line ∈ report sections) : line.toList.head? ≠ some '\n' := by
  simp only [report, printed, List.mem_append, List.mem_cons, List.not_mem_nil, or_false,
    List.mem_flatMap] at hline
  obtain ((rfl | rfl) | ⟨s, -, ((rfl | rfl) | ⟨group, -, hgroup⟩) | rfl⟩) | rfl := hline
  case inl.inr.inl.inr => exact head?_ne_of_mem_printed hgroup
  all_goals simp

theorem Section.origins_sublist (s : Section) : (s.groups.map Group.origin).Sublist groupOrder :=
  List.filter_sublist.map Group.origin

theorem Section.entries_of_mem_groups {s : Section} {group : Group} (hgroup : group ∈ s.groups) :
    group.entries ≠ [] ∧
      group.entries = s.entries.filter fun entry => entry.origin = group.origin := by
  obtain ⟨hmem, hnonempty⟩ := List.mem_filter.mp hgroup
  obtain ⟨origin, -, rfl⟩ := List.mem_map.mp hmem
  exact ⟨by simpa using hnonempty, rfl⟩

theorem entries_of_mem_sections {journal : Journal} {s : Section} (hs : s ∈ journal.sections) :
    s.entries = journal.toList.filter fun entry => entry.scope = s.scope := by
  obtain ⟨id, -, rfl⟩ := List.mem_map.mp hs
  rfl

theorem map_scope_printedSections (journal : Journal) :
    journal.printedSections.map PrintedSection.scope = journal.scopes := by
  rw [printedSections, sections, List.map_map, List.map_map]
  exact List.map_id _

end Journal

namespace Draft

variable {K : PrimeField} {draft : Draft K}

theorem Recorded.mem_scopes_iff (h : draft.Recorded) (hconsistent : draft.registry.Consistent)
    {id : CircuitId} :
    id ∈ draft.journal.scopes ↔ ∃ scope, draft.find? id = some scope ∧ scope.vars ≠ #[] := by
  rw [Journal.mem_scopes_iff]
  constructor
  · rintro ⟨entry, hentry, rfl⟩
    have hknown := hconsistent.contains_iff.mpr (h.registered entry hentry)
    obtain ⟨scope, hscope⟩ := exists_scope hconsistent hknown
    refine ⟨scope, hscope, Array.ne_empty_of_mem (a := entry.var) ?_⟩
    exact (h.mem_vars_iff (hconsistent.mem_of_find? hscope)).mpr
      ⟨entry, hentry, rfl, (hconsistent.id_of_find? hscope).symm⟩
  · rintro ⟨scope, hscope, hvars⟩
    obtain ⟨var, hvar⟩ := Array.exists_mem_of_ne_empty _ hvars
    obtain ⟨entry, hentry, -, hid⟩ := (h.mem_vars_iff (hconsistent.mem_of_find? hscope)).mp hvar
    exact ⟨entry, hentry, hid.trans (hconsistent.id_of_find? hscope)⟩

end Draft

namespace Journal

/-- A report consists of sections, one for each scope of the journal in order of first use, and these of
groups by origin, none of them empty, each with its entries in the order of the journal. So every
entry has its line, no entry has two, and the numbers in the headings are those of the lines below
them. The sections of a draft are those of its scopes that have variables, and list these. -/
structure PrintsEveryEntry (journal : Journal) : Prop where
  report : journal.report = PrintedSection.report journal.printedSections
  mem_scopes_iff : ∀ id, id ∈ journal.printedSections.map PrintedSection.scope ↔
    ∃ entry ∈ journal.toList, entry.scope = id
  firstUse : (journal.printedSections.map PrintedSection.scope).Pairwise fun id later =>
    (journal.toList.map Entry.scope).idxOf id < (journal.toList.map Entry.scope).idxOf later
  origins : ∀ s ∈ journal.printedSections, (s.groups.map Group.origin).Sublist
    [.publicInput, .secretInput, .circuitInput, .internal]
  nonempty : ∀ s ∈ journal.printedSections, ∀ group ∈ s.groups, group.entries ≠ []
  entries : ∀ s ∈ journal.printedSections, ∀ group ∈ s.groups, group.entries =
    journal.toList.filter fun entry => entry.scope = s.scope ∧ entry.origin = group.origin
  perm : (journal.printedSections.flatMap PrintedSection.entries).Perm journal.toList
  entryLines : (journal.report.filter isEntryLine).Perm (journal.toList.map entryLine)
  no_notice : ∀ line ∈ journal.report, ∀ id : CircuitId,
    line ≠ "\nScope " ++ id.text ++ " has no allocations\n"
  scopes_of_draft : ∀ (K : PrimeField) (draft : Draft K), draft.Reachable → draft.journal = journal →
    ∀ id, id ∈ journal.printedSections.map PrintedSection.scope ↔
      ∃ scope, draft.find? id = some scope ∧ scope.vars ≠ #[]
  vars_of_draft : ∀ (K : PrimeField) (draft : Draft K), draft.Reachable → draft.journal = journal →
    ∀ s ∈ journal.printedSections, ∀ scope, draft.find? s.scope = some scope →
      (s.entries.map Entry.var).Perm scope.vars.toList

theorem printsEveryEntry (journal : Journal) : journal.PrintsEveryEntry where
  report := journal.report_eq_printed
  mem_scopes_iff id := by rw [map_scope_printedSections, Journal.mem_scopes_iff]
  firstUse := by
    rw [map_scope_printedSections]
    exact pairwise_idxOf_eraseDups _
  origins := List.forall_mem_map.mpr fun s _ => s.origins_sublist
  nonempty := List.forall_mem_map.mpr fun s _ _ hgroup => (s.entries_of_mem_groups hgroup).1
  entries := by
    refine List.forall_mem_map.mpr fun s hs group hgroup => ?_
    rw [(Section.entries_of_mem_groups hgroup).2, entries_of_mem_sections hs, List.filter_filter]
    refine List.filter_congr fun entry _ => ?_
    rw [Bool.and_comm, Bool.decide_and]
    rfl
  perm := journal.perm_printedSections
  entryLines := by
    rw [journal.report_eq_printed, PrintedSection.filter_report]
    exact journal.perm_printedSections.map entryLine
  no_notice := by
    rintro line hline id rfl
    rw [journal.report_eq_printed] at hline
    exact PrintedSection.head?_ne_of_mem_report hline (by simp)
  scopes_of_draft := by
    rintro K draft h rfl id
    rw [map_scope_printedSections, h.recorded.mem_scopes_iff h.consistent]
  vars_of_draft := by
    rintro K draft h rfl
    refine List.forall_mem_map.mpr fun s hs scope hscope => ?_
    obtain ⟨hmem, hid⟩ := h.consistent.find?_eq_some_iff.mp hscope
    have hentries : s.entries = draft.journal.entriesOf scope.id := by
      rw [entries_of_mem_sections hs, hid]
      rfl
    rw [← (h.recorded.scopes scope hmem).vars, ← hentries]
    exact s.perm_entries.map Entry.var

end Journal

theorem Journal.printsEveryEntry_mixed :
    Draft.mixed.Reachable ∧ Draft.mixed.journal.PrintsEveryEntry ∧
      Draft.mixed.report =
        ["=== Circuit Allocation Log ===", "Total allocations: 6\n",
          "=== Allocation Log for scope sc0 ===", "Total allocations in scope: 4\n",
          "Public (1):", "  v3 (p)", "Secret (1):", "  v1 (s)", "SubCircuitInput (1):", "  v5 (r)",
          "Internal (1):", "  v6 (m)", "=== End Scope Log ===\n",
          "=== Allocation Log for scope sc7 ===", "Total allocations in scope: 1\n",
          "SubCircuitInput (1):", "  v2 (x)", "=== End Scope Log ===\n",
          "=== Allocation Log for scope sc#0 ===", "Total allocations in scope: 1\n",
          "Internal (1):", "  v4 (t)", "=== End Scope Log ===\n",
          "=== End Allocation Log ===\n"] :=
  ⟨Draft.reachable_mixed, Draft.mixed.journal.printsEveryEntry, by decide +kernel⟩

end CircuitDraft
