import CircuitDraft.Proofs.Handoff

/-!
The names of leaves, their visibilities and the labels of internal variables end up in the journal,
the settings of a draft in its configuration, and neither is ever read again. So a draft from which
they are erased goes through the same calls in the same way.
-/

namespace CircuitDraft

/-- The call with neutral names and labels, and with nothing said of the visibility of a leaf. -/
def Call.unnamed : Call → Call
  | .secretInput _ => .secretInput (.plain "")
  | .publicInput _ => .publicInput (.plain "")
  | .internal _ => .internal ""
  | .circuitInput id _ => .circuitInput id (.plain "")
  | .circuitInternal id _ => .circuitInternal id ""
  | .register id => .register id
  | .registerNext => .registerNext
  | .getOrRegister id => .getOrRegister id
  | .addOutput id var => .addOutput id var

def Declaration.unnamed (d : Declaration) : Declaration :=
  { d with label := "" }

theorem Call.declaration?_unnamed {call : Call} {d : Declaration}
    (hd : call.declaration? = some d) : call.unnamed.declaration? = some d.unnamed := by
  cases call with
  | secretInput leaf | publicInput leaf | internal label | circuitInput id leaf
  | circuitInternal id label =>
      cases hd
      rfl
  | register id | registerNext | getOrRegister id | addOutput id var => cases hd

namespace Journal

def Entry.unnamed (entry : Entry) : Entry :=
  { entry with label := "" }

def unnamed (journal : Journal) : Journal :=
  ⟨journal.entries.map Entry.unnamed⟩

theorem unnamed_empty : ({} : Journal).unnamed = {} :=
  congrArg Journal.mk Array.map_empty

theorem unnamed_push (journal : Journal) (entry : Entry) :
    (journal.push entry).unnamed = journal.unnamed.push entry.unnamed :=
  congrArg Journal.mk Array.map_push

theorem toList_unnamed (journal : Journal) :
    journal.unnamed.toList = journal.toList.map Entry.unnamed :=
  Array.toList_map

end Journal

def Event.unnamed : Event → Event
  | .declared entry => .declared entry.unnamed
  | event => event

namespace Draft

variable {K : PrimeField} {draft : Draft K} {call : Call}

/-- The draft without the labels of its journal and with the default configuration. -/
def unnamed (draft : Draft K) : Draft K :=
  { draft with config := {}, journal := draft.journal.unnamed }

/-- The outcome with nothing named, neither in the draft nor in the events. -/
def unnamedOutcome (outcome : Outcome (Draft K) (Reply K)) : Outcome (Draft K) (Reply K) :=
  ⟨outcome.answer, outcome.state.unnamed, outcome.events.map Event.unnamed⟩

theorem unnamed_enter (draft : Draft K) (d : Declaration) (var : Variable) :
    (draft.enter (d.entry var)).unnamed = draft.unnamed.enter (d.unnamed.entry var) := by
  simp only [unnamed, enter, Journal.unnamed_push]
  rfl

theorem unnamed_entryEvents (draft : Draft K) (d : Declaration) (var : Variable) :
    (draft.entryEvents (d.entry var)).map Event.unnamed =
      draft.unnamed.entryEvents (d.unnamed.entry var) := by
  simp only [entryEvents, List.map_cons]
  refine congrArg₂ List.cons rfl ?_
  rw [show (d.unnamed.entry var).origin = (d.entry var).origin from rfl]
  split <;> rfl

theorem Refusal.unnamed {cause : BuildError} {events : List Event}
    (h : draft.Refusal call cause events) :
    draft.unnamed.Refusal call.unnamed cause (events.map Event.unnamed) := by
  cases h with
  | @unknown _ d hd hfree =>
      exact .unknown (d := d.unnamed) (Call.declaration?_unnamed hd) hfree
  | exhausted hd hknown hnext => exact .exhausted (Call.declaration?_unnamed hd) hknown hnext
  | reservedKey hreserved => exact .reservedKey hreserved
  | reservedLookup hreserved => exact .reservedLookup hreserved
  | taken hkey hknown => exact .taken hkey hknown
  | identitiesExhausted hnext => exact .identitiesExhausted hnext
  | unknownOutput hnone => exact .unknownOutput hnone
  | foreignOutput hscope hforeign => exact .foreignOutput hscope hforeign

/-- The guards of a turn look at the counter, the registry and the identities only. -/
theorem Turn.unnamed {outcome : Outcome (Draft K) (Reply K)} (hturn : draft.Turn call outcome) :
    draft.unnamed.Turn call.unnamed (unnamedOutcome outcome) := by
  cases hturn with
  | refused hrefusal => exact .refused hrefusal.unnamed
  | @declared _ d var hd hknown hnext =>
      rw [unnamedOutcome, unnamed_enter, unnamed_entryEvents]
      exact .declared (Call.declaration?_unnamed hd) hknown hnext
  | registered hkey hfree => exact .registered hkey hfree
  | added hkey hfree => exact .added hkey hfree
  | present hkey hknown => exact .present hkey hknown
  | issued hnext => exact .issued hnext
  | marked hscope howned => exact .marked hscope howned

theorem perform_unnamed (h : draft.registry.Consistent) (call : Call) :
    draft.unnamed.perform call.unnamed = unnamedOutcome (draft.perform call) := by
  have hunnamed : draft.unnamed.registry.Consistent := h
  exact (perform_eq_iff hunnamed).mpr (perform_turn h call).unnamed

theorem outcomes_unnamed (h : draft.registry.Consistent) (calls : List Call) :
    draft.unnamed.outcomes (calls.map Call.unnamed) =
      (draft.outcomes calls).map unnamedOutcome := by
  induction calls generalizing draft with
  | nil => rfl
  | cons call rest ih =>
      have hrest := ih (perform_consistent h call)
      simp only [List.map_cons, outcomes, perform_unnamed h]
      exact congrArg _ hrest

theorem run_unnamed (h : draft.registry.Consistent) (calls : List Call) :
    draft.unnamed.run (calls.map Call.unnamed) = (draft.run calls).unnamed := by
  induction calls generalizing draft with
  | nil => rfl
  | cons call rest ih =>
      rw [List.map_cons, run_cons, perform_unnamed h]
      exact ih (perform_consistent h call)

theorem answers_unnamed (h : draft.registry.Consistent) (calls : List Call) :
    draft.unnamed.answers (calls.map Call.unnamed) = draft.answers calls := by
  rw [answers, outcomes_unnamed h, List.map_map]
  rfl

theorem events_unnamed (h : draft.registry.Consistent) (calls : List Call) :
    draft.unnamed.events (calls.map Call.unnamed) = (draft.events calls).map Event.unnamed := by
  rw [events, outcomes_unnamed h, List.flatMap_map, events, List.map_flatMap]
  rfl

/-- New drafts differ in nothing but their configurations. -/
theorem IsNew.unnamed_eq {start : Draft K} (hnew : start.IsNew) :
    start.unnamed = empty {} := by
  obtain ⟨config, rfl⟩ := hnew.exists_config
  rw [unnamed, empty, Journal.unnamed_empty]
  rfl

/-- Two sequences of calls get the same answers and lead to drafts that are the same up to the
configuration, which each draft keeps as it was at the start, and the labels in the journal. -/
structure SameButNames (start start' : Draft K) (calls calls' : List Call) : Prop where
  answers : start.answers calls = start'.answers calls'
  registry : (start.run calls).registry = (start'.run calls').registry
  publicInputs : (start.run calls).publicInputs = (start'.run calls').publicInputs
  varCount : (start.run calls).varCount = (start'.run calls').varCount
  entries : (start.run calls).journal.toList.map (fun entry =>
      (entry.var, entry.origin, entry.scope)) =
    (start'.run calls').journal.toList.map fun entry => (entry.var, entry.origin, entry.scope)
  config : (start.run calls).config = start.config ∧ (start'.run calls').config = start'.config
  unnamed : (start.run calls).unnamed = (start'.run calls').unnamed
  events : (start.events calls).map Event.unnamed = (start'.events calls').map Event.unnamed

theorem entries_of_unnamed_eq {draft draft' : Draft K} (h : draft.unnamed = draft'.unnamed) :
    draft.journal.toList.map (fun entry => (entry.var, entry.origin, entry.scope)) =
      draft'.journal.toList.map fun entry => (entry.var, entry.origin, entry.scope) := by
  have hentries : draft.journal.toList.map Journal.Entry.unnamed =
      draft'.journal.toList.map Journal.Entry.unnamed := by
    rw [← Journal.toList_unnamed, ← Journal.toList_unnamed]
    exact congrArg (fun draft : Draft K => draft.journal.toList) h
  have hparts := congrArg (List.map fun entry : Journal.Entry =>
    (entry.var, entry.origin, entry.scope)) hentries
  rwa [List.map_map, List.map_map] at hparts

theorem IsNew.sameButNames {start start' : Draft K} (hnew : start.IsNew) (hnew' : start'.IsNew)
    {calls calls' : List Call} (hcalls : calls.map Call.unnamed = calls'.map Call.unnamed) :
    start.SameButNames start' calls calls' := by
  have hstart : start.unnamed = start'.unnamed := hnew.unnamed_eq.trans hnew'.unnamed_eq.symm
  have hunnamed : (start.run calls).unnamed = (start'.run calls').unnamed := by
    rw [← run_unnamed hnew.consistent, ← run_unnamed hnew'.consistent, hstart, hcalls]
  have hregistry := congrArg Draft.registry hunnamed
  have hpublic := congrArg Draft.publicInputs hunnamed
  have hcount := congrArg Draft.varCount hunnamed
  refine ⟨?_, hregistry, hpublic, hcount, entries_of_unnamed_eq hunnamed,
    ⟨run_config hnew.consistent calls, run_config hnew'.consistent calls'⟩, hunnamed, ?_⟩
  · rw [← answers_unnamed hnew.consistent, ← answers_unnamed hnew'.consistent, hstart, hcalls]
  · rw [← events_unnamed hnew.consistent, ← events_unnamed hnew'.consistent, hstart, hcalls]

/-- Calls of which each has its name, its label or the visibility of its leaf changed in the other
sequence. Three of them are refused. -/
def named : List Call :=
  [.secretInput (.member "s" .secretValue), .publicInput (.plain "p"), .getOrRegister ⟨7⟩,
    .circuitInput ⟨7⟩ (.plain "x"), .internal "t", .circuitInternal ⟨9⟩ "lost", .register ⟨7⟩,
    .registerNext, .addOutput ⟨7⟩ ⟨3⟩, .addOutput ⟨7⟩ ⟨1⟩]

def renamed : List Call :=
  [.secretInput (.member "q" .publicValue), .publicInput (.member "" .secretValue),
    .getOrRegister ⟨7⟩, .circuitInput ⟨7⟩ (.member "y" .publicValue), .internal "",
    .circuitInternal ⟨9⟩ "found", .register ⟨7⟩, .registerNext, .addOutput ⟨7⟩ ⟨3⟩,
    .addOutput ⟨7⟩ ⟨1⟩]

theorem sameButNames_renamed :
    (empty {} : Draft .koalaBear).IsNew ∧ (empty ⟨64, 4, true⟩ : Draft .koalaBear).IsNew ∧
      named.map Call.unnamed = renamed.map Call.unnamed ∧
      (empty {} : Draft .koalaBear).SameButNames (empty ⟨64, 4, true⟩) named renamed ∧
      ((empty ⟨64, 4, true⟩ : Draft .koalaBear).run renamed).journal.toList.map
          Journal.Entry.label = ["q", "", "y", ""] := by
  have hcalls : named.map Call.unnamed = renamed.map Call.unnamed := by decide
  exact ⟨isNew_empty {}, isNew_empty _, hcalls,
    (isNew_empty {}).sameButNames (isNew_empty _) hcalls, by decide +kernel⟩

end Draft

end CircuitDraft
