import CircuitDraft.Proofs.JournalHistory
import CircuitDraft.Proofs.Texts

/-!
What an observer learns of a draft from the events of the calls on it: every declaration, every
registration and every public input, each in its turn.
-/

namespace CircuitDraft

namespace Event

/-- The events with a given message, in order. -/
def saying (message : String) (events : List Event) : List Event :=
  events.filter fun event => event.message? = some message

/-- The messages that something has been added to a draft. -/
def additions : List String :=
  ["allocated variable", "registered sub-circuit", "tagged public"]

/-- None of the events says that something has been added. -/
def Silent (events : List Event) : Prop :=
  ∀ event ∈ events, ∀ message ∈ additions, event.message? ≠ some message

@[simp]
theorem saying_append (message : String) (events later : List Event) :
    saying message (events ++ later) = saying message events ++ saying message later :=
  List.filter_append events later

/-- Each event that tags a variable comes right after the event of its declaration as public. -/
def TagsDeclared (events : List Event) : Prop :=
  ∀ (i : Nat) (var : Variable) (position : Nat), events[i]? = some (.taggedPublic var position) →
    ∃ (j : Nat) (entry : Journal.Entry), i = j + 1 ∧ events[j]? = some (.declared entry) ∧
      entry.origin = .publicInput ∧ entry.var = var

theorem tagsDeclared_of_forall_ne {events : List Event}
    (hne : ∀ (var : Variable) (position : Nat), .taggedPublic var position ∉ events) :
    TagsDeclared events :=
  fun _ var position htag => absurd (List.mem_of_getElem? htag) (hne var position)

theorem Silent.saying_eq_nil {events : List Event} (h : Silent events) {message : String}
    (hmessage : message ∈ additions) : saying message events = [] := by
  rw [saying, List.filter_eq_nil_iff]
  intro event hevent
  simpa using h event hevent message hmessage

theorem Silent.tagsDeclared {events : List Event} (h : Silent events) : TagsDeclared events :=
  tagsDeclared_of_forall_ne fun _ _ htag => h _ htag "tagged public" (by decide) rfl

theorem TagsDeclared.append {events later : List Event} (h : TagsDeclared events)
    (h' : TagsDeclared later) : TagsDeclared (events ++ later) := by
  intro i var position htag
  rcases Nat.lt_or_ge i events.length with hlt | hge
  · rw [List.getElem?_append_left hlt] at htag
    obtain ⟨j, entry, rfl, hentry, hpublic⟩ := h i var position htag
    refine ⟨j, entry, rfl, ?_, hpublic⟩
    rw [List.getElem?_append_left (by omega), hentry]
  · rw [List.getElem?_append_right hge] at htag
    obtain ⟨j, entry, hj, hentry, hpublic⟩ := h' _ var position htag
    refine ⟨events.length + j, entry, by omega, ?_, hpublic⟩
    rw [List.getElem?_append_right (Nat.le_add_right _ _), Nat.add_sub_cancel_left, hentry]

end Event

namespace Draft

variable {K : PrimeField} {draft : Draft K}

/-- The events that tell of the entries of the journal. -/
def declarations (draft : Draft K) : List Event :=
  draft.journal.toList.map .declared

/-- The events that tell of the sub-circuits next to the root, each with the number of those that
are registered by then. -/
def registrations (draft : Draft K) : List Event :=
  (draft.registry.ids.tail.zipIdx 2).map fun (id, total) => .registered id total

/-- The events that tell of the public inputs, each with its place among them. -/
def publications (draft : Draft K) : List Event :=
  draft.publicInputs.vars.toList.zipIdx.map fun (var, position) => .taggedPublic var position

theorem declarations_enter (draft : Draft K) (entry : Journal.Entry) :
    (draft.enter entry).declarations = draft.declarations ++ [.declared entry] := by
  simp [declarations, enter]

theorem publications_enter (draft : Draft K) (entry : Journal.Entry) :
    (draft.enter entry).publications = draft.publications ++
      if entry.origin = .publicInput then [.taggedPublic entry.var draft.publicInputs.count]
      else [] := by
  simp only [publications, enter]
  split
  · simp [PublicInputs.push, PublicInputs.count, List.zipIdx_append]
  · exact (List.append_nil _).symm

theorem registrations_congr {later : Draft K} (hids : later.registry.ids = draft.registry.ids) :
    later.registrations = draft.registrations := by
  rw [registrations, hids, registrations]

theorem registrations_enroll (h : draft.registry.Consistent) (id : CircuitId)
    (next : Option CircuitId) :
    (draft.enroll id next).registrations =
      draft.registrations ++ [.registered id (draft.registry.size + 1)] := by
  obtain ⟨rest, hids⟩ := List.head?_eq_some_iff.mp h.head
  have hsize : draft.registry.size = rest.length + 1 := by
    rw [← Registry.length_ids, hids, List.length_cons]
  have htotal : 2 + rest.length = rest.length + 1 + 1 := by omega
  simp [registrations, enroll, hids, hsize, List.zipIdx_append, htotal]

theorem saying_entryEvents_declared (draft : Draft K) (entry : Journal.Entry) :
    Event.saying "allocated variable" (draft.entryEvents entry) = [.declared entry] := by
  rw [entryEvents]
  split <;> simp [Event.saying, Event.message?]

theorem saying_entryEvents_tagged (draft : Draft K) (entry : Journal.Entry) :
    Event.saying "tagged public" (draft.entryEvents entry) =
      if entry.origin = .publicInput then [.taggedPublic entry.var draft.publicInputs.count]
      else [] := by
  rw [entryEvents]
  split <;> simp [Event.saying, Event.message?]

theorem saying_entryEvents_registered (draft : Draft K) (entry : Journal.Entry) :
    Event.saying "registered sub-circuit" (draft.entryEvents entry) = [] := by
  rw [entryEvents]
  split <;> simp [Event.saying, Event.message?]

theorem tagsDeclared_entryEvents (draft : Draft K) (entry : Journal.Entry) :
    Event.TagsDeclared (draft.entryEvents entry) := by
  intro i var position htag
  rw [entryEvents] at htag ⊢
  split at htag
  · next horigin =>
    rw [if_pos horigin]
    rcases i with _ | _ | i
    · cases htag
    · cases htag
      exact ⟨0, entry, rfl, rfl, horigin, rfl⟩
    · cases htag
  · rcases i with _ | i <;> cases htag

/-- Nothing is added by a call that is refused, and no event says so. -/
theorem Refusal.silent {call : Call} {cause : BuildError} {events : List Event}
    (hrefusal : draft.Refusal call cause events) : Event.Silent events := by
  intro event hevent
  cases hrefusal with
  | reservedKey _ | taken _ _ =>
      obtain rfl := List.mem_singleton.mp hevent
      simp [Event.additions, Event.message?]
  | _ => cases hevent

section Turn

variable {call : Call} {outcome : Outcome (Draft K) (Reply K)}

theorem Turn.declarations_eq (hturn : draft.Turn call outcome) :
    outcome.state.declarations =
      draft.declarations ++ Event.saying "allocated variable" outcome.events := by
  cases hturn with
  | refused hrefusal =>
      rw [hrefusal.silent.saying_eq_nil (by decide), List.append_nil]
  | declared _ _ _ => rw [saying_entryEvents_declared, declarations_enter]
  | registered _ _ | added _ _ | present _ _ | issued _ | marked _ _ =>
      exact (List.append_nil _).symm

theorem Turn.registrations_eq (hturn : draft.Turn call outcome) (h : draft.registry.Consistent) :
    outcome.state.registrations =
      draft.registrations ++ Event.saying "registered sub-circuit" outcome.events := by
  cases hturn with
  | refused hrefusal =>
      rw [hrefusal.silent.saying_eq_nil (by decide), List.append_nil]
  | declared _ _ _ =>
      rw [saying_entryEvents_registered, List.append_nil, registrations_congr (ids_enter h _)]
  | registered _ _ | added _ _ | issued _ => exact registrations_enroll h _ _
  | present _ _ => exact (List.append_nil _).symm
  | marked _ _ => exact (registrations_congr (ids_mark h _ _)).trans (List.append_nil _).symm

theorem Turn.publications_eq (hturn : draft.Turn call outcome) :
    outcome.state.publications =
      draft.publications ++ Event.saying "tagged public" outcome.events := by
  cases hturn with
  | refused hrefusal =>
      rw [hrefusal.silent.saying_eq_nil (by decide), List.append_nil]
  | declared _ _ _ => rw [saying_entryEvents_tagged, publications_enter]
  | registered _ _ | added _ _ | present _ _ | issued _ | marked _ _ =>
      exact (List.append_nil _).symm

theorem Turn.tagsDeclared (hturn : draft.Turn call outcome) :
    Event.TagsDeclared outcome.events := by
  cases hturn with
  | declared _ _ _ => exact tagsDeclared_entryEvents draft _
  | refused hrefusal => exact hrefusal.silent.tagsDeclared
  | _ => exact Event.tagsDeclared_of_forall_ne (by simp)

theorem Turn.silent_of_error (hturn : draft.Turn call outcome) {cause : BuildError}
    (hanswer : outcome.answer = .error cause) : Event.Silent outcome.events := by
  cases hturn with
  | refused hrefusal => exact hrefusal.silent
  | _ => cases hanswer

end Turn

theorem events_cons (draft : Draft K) (call : Call) (rest : List Call) :
    draft.events (call :: rest) =
      (draft.perform call).events ++ (draft.perform call).state.events rest :=
  rfl

/-- What the events of each call tell, the events of a sequence of calls tell. -/
theorem run_told {message : String} {told : Draft K → List Event}
    (hstep : ∀ (draft : Draft K) (call : Call) (outcome : Outcome (Draft K) (Reply K)),
      draft.registry.Consistent → draft.Turn call outcome →
        told outcome.state = told draft ++ Event.saying message outcome.events)
    (h : draft.registry.Consistent) (calls : List Call) :
    told (draft.run calls) = told draft ++ Event.saying message (draft.events calls) := by
  induction calls generalizing draft with
  | nil => exact (List.append_nil _).symm
  | cons call rest ih =>
      have hturn := perform_turn h call
      rw [run_cons, ih (hturn.consistent h), hstep draft call _ h hturn, events_cons,
        Event.saying_append, List.append_assoc]

theorem tagsDeclared_events (h : draft.registry.Consistent) (calls : List Call) :
    Event.TagsDeclared (draft.events calls) := by
  induction calls generalizing draft with
  | nil => exact Event.tagsDeclared_of_forall_ne nofun
  | cons call rest ih =>
      have hturn := perform_turn h call
      exact hturn.tagsDeclared.append (ih (hturn.consistent h))

/-- Events tell of the declarations, registrations and public inputs of a draft, of each one once and
in their order. -/
structure ToldBy (draft : Draft K) (events : List Event) : Prop where
  declared : Event.saying "allocated variable" events = draft.declarations
  registered : Event.saying "registered sub-circuit" events = draft.registrations
  taggedPublic : Event.saying "tagged public" events = draft.publications
  tagsDeclared : Event.TagsDeclared events

theorem declarations_injective {K' : PrimeField} {other : Draft K'}
    (h : draft.declarations = other.declarations) : draft.journal = other.journal := by
  have hentries : draft.journal.toList = other.journal.toList :=
    List.map_injective_iff.mpr (fun _ _ hentry => Event.declared.inj hentry) h
  have harray : draft.journal.entries = other.journal.entries := Array.toList_inj.mp hentries
  exact congrArg Journal.mk harray

theorem registrations_injective {K' : PrimeField} {other : Draft K'}
    (h : draft.registrations = other.registrations) (hdraft : draft.registry.Consistent)
    (hother : other.registry.Consistent) : draft.registry.ids = other.registry.ids := by
  obtain ⟨rest, hids⟩ := List.head?_eq_some_iff.mp hdraft.head
  obtain ⟨rest', hids'⟩ := List.head?_eq_some_iff.mp hother.head
  have hpairs : rest.zipIdx 2 = rest'.zipIdx 2 := by
    refine List.map_injective_iff.mpr ?_ (by simpa [registrations, hids, hids'] using h)
    rintro ⟨id, total⟩ ⟨id', total'⟩ hevent
    exact Prod.ext (Event.registered.inj hevent).1 (Event.registered.inj hevent).2
  have hrest := congrArg (List.map Prod.fst) hpairs
  rw [List.zipIdx_map_fst, List.zipIdx_map_fst] at hrest
  rw [hids, hids', hrest]

theorem publications_injective {K' : PrimeField} {other : Draft K'}
    (h : draft.publications = other.publications) : draft.publicInputs = other.publicInputs := by
  have hpairs : draft.publicInputs.vars.toList.zipIdx = other.publicInputs.vars.toList.zipIdx := by
    refine List.map_injective_iff.mpr ?_ h
    rintro ⟨var, position⟩ ⟨var', position'⟩ hevent
    exact Prod.ext (Event.taggedPublic.inj hevent).1 (Event.taggedPublic.inj hevent).2
  have hvars := congrArg (List.map Prod.fst) hpairs
  rw [List.zipIdx_map_fst, List.zipIdx_map_fst] at hvars
  exact congrArg PublicInputs.mk (Array.toList_inj.mp hvars)

theorem IsNew.toldBy_run (hnew : draft.IsNew) (calls : List Call) :
    (draft.run calls).ToldBy (draft.events calls) := by
  have hconsistent := hnew.consistent
  have hdeclared := run_told (fun _ _ _ _ hturn => hturn.declarations_eq) hconsistent calls
  have hregistered :=
    run_told (fun _ _ _ h hturn => hturn.registrations_eq h) hconsistent calls
  have hpublic := run_told (fun _ _ _ _ hturn => hturn.publications_eq) hconsistent calls
  obtain ⟨config, rfl⟩ := hnew.exists_config
  exact ⟨hdeclared.symm, hregistered.symm, hpublic.symm, tagsDeclared_events hconsistent calls⟩

/-- Events that say of no addition may come first. -/
theorem ToldBy.after {events opening : List Event} (h : draft.ToldBy events)
    (hopening : Event.Silent opening) : draft.ToldBy (opening ++ events) where
  declared := by
    rw [Event.saying_append, hopening.saying_eq_nil (by decide), List.nil_append, h.declared]
  registered := by
    rw [Event.saying_append, hopening.saying_eq_nil (by decide), List.nil_append, h.registered]
  taggedPublic := by
    rw [Event.saying_append, hopening.saying_eq_nil (by decide), List.nil_append, h.taggedPublic]
  tagsDeclared := hopening.tagsDeclared.append h.tagsDeclared

theorem silent_create (requested : Nat) (config : Config) :
    Event.Silent (create requested config : Except BuildError (Draft K) × List Event).2 := by
  rw [create]
  split <;> simp [Event.Silent, Event.additions, Event.message?]

/-- The events of the calls on a new draft, after those of its creation, are an account of what the
calls have put into it, and what an observer is shown of them leaves no doubt about it. -/
structure GivesAccount (start : Draft K) (opening : List Event) : Prop where
  told : ∀ calls, (start.run calls).ToldBy (opening ++ start.events calls)
  refused : ∀ calls call cause, ((start.run calls).perform call).answer = .error cause →
    Event.Silent ((start.run calls).perform call).events
  rebuilt : ∀ calls (K' : PrimeField) (other : Draft K') (otherCalls : List Call), other.IsNew →
    (start.events calls).map Event.seen = (other.events otherCalls).map Event.seen →
      (start.run calls).journal = (other.run otherCalls).journal ∧
      (start.run calls).registry.ids = (other.run otherCalls).registry.ids ∧
      (start.run calls).publicInputs = (other.run otherCalls).publicInputs

theorem givesAccount_create {requested : Nat} {config : Config} {start : Draft K}
    (hcreate : (create requested config).1 = .ok start) :
    start.GivesAccount (create requested config : Except BuildError (Draft K) × List Event).2 := by
  have hnew : start.IsNew := ⟨requested, config, hcreate⟩
  constructor
  · intro calls
    exact (hnew.toldBy_run calls).after (silent_create requested config)
  · intro calls call cause hanswer
    have hturn := perform_turn (run_consistent hnew.consistent calls) call
    exact hturn.silent_of_error hanswer
  · intro calls K' other otherCalls hother hseen
    have hevents := List.map_injective_iff.mpr Event.seen_injective hseen
    have htold := hnew.toldBy_run calls
    have htold' := hevents ▸ hother.toldBy_run otherCalls
    exact ⟨declarations_injective (htold.declared.symm.trans htold'.declared),
      registrations_injective (htold.registered.symm.trans htold'.registered)
        (run_consistent hnew.consistent calls) (run_consistent hother.consistent otherCalls),
      publications_injective (htold.taggedPublic.symm.trans htold'.taggedPublic)⟩

/-- Calls of which two are refused and one finds what it asks for. -/
def tracedCalls : List Call :=
  [.publicInput (.plain "p"), .getOrRegister ⟨7⟩, .circuitInput ⟨9⟩ (.plain "lost"),
    .getOrRegister ⟨7⟩, .circuitInternal ⟨7⟩ "t", .register ⟨7⟩, .registerNext,
    .publicInput (.plain "q")]

theorem givesAccount_traced :
    (create 2013265921 {} : Except BuildError (Draft .babyBear) × List Event).1 = .ok (empty {}) ∧
      (empty {} : Draft .babyBear).GivesAccount
        (create 2013265921 {} : Except BuildError (Draft .babyBear) × List Event).2 ∧
      ((empty {} : Draft .babyBear).events tracedCalls).map Event.seen =
        [(some "allocated variable",
            [("var", "v1"), ("scope", "sc0"), ("kind", "Public"), ("label", "p")]),
          (some "tagged public", [("var", "v1"), ("pos", "0")]),
          (some "registered sub-circuit", [("id", "sc7"), ("total", "2")]),
          (some "reusing sub-circuit", [("id", "sc7")]),
          (some "allocated variable",
            [("var", "v2"), ("scope", "sc7"), ("kind", "Internal"), ("label", "t")]),
          (some "rejected duplicate sub-circuit registration", [("id", "sc7")]),
          (some "registered sub-circuit", [("id", "sc#0"), ("total", "3")]),
          (some "allocated variable",
            [("var", "v3"), ("scope", "sc0"), ("kind", "Public"), ("label", "q")]),
          (some "tagged public", [("var", "v3"), ("pos", "1")])] := by
  have hcreate : (create 2013265921 {} : Except BuildError (Draft .babyBear) × List Event).1 =
      .ok (empty {}) :=
    create_eq_ok_iff.mpr ⟨by decide +kernel, rfl⟩
  exact ⟨hcreate, givesAccount_create hcreate, by decide +kernel⟩

end Draft

end CircuitDraft
