import CircuitDraft.Proofs.Frame
import CircuitDraft.Proofs.CallHistory
import CircuitDraft.Proofs.ScopePartition
import Mathlib.Data.List.GetD

/-!
A block that is described step by step in an empty sub-circuit comes out the same wherever it is
described. The numbers of its variables depend on what else is declared meanwhile, but the places
that they have in the sub-circuit depend on the steps alone.
-/

namespace CircuitDraft

/-- A step in the description of a block: it adds a variable to the block, or marks the variable at
a place of the block as an output. -/
inductive BlockStep
  | input
  | internal
  | output (place : Nat)
deriving DecidableEq

namespace BlockStep

def role? : BlockStep → Option Role
  | input => some .input
  | internal => some .internal
  | output _ => none

def place? : BlockStep → Option Nat
  | output place => some place
  | _ => none

/-- Whether steps on a block of `size` variables mark variables only that are there by then. -/
def placed : Nat → List BlockStep → Bool
  | _, [] => true
  | size, .output place :: rest => place < size && placed size rest
  | size, .input :: rest => placed (size + 1) rest
  | size, .internal :: rest => placed (size + 1) rest

end BlockStep

/-- What is called while a block is described: a step of the block, or something else. -/
inductive Move
  | input (leaf : Leaf)
  | internal (label : String)
  | output (place : Nat)
  | aside (call : Call)
deriving DecidableEq

namespace Move

def step? : Move → Option BlockStep
  | input _ => some .input
  | internal _ => some .internal
  | output place => some (.output place)
  | aside _ => none

/-- The call that a move makes, where `minted` lists the variables that the block has been given so
far. A place that it does not have yet is taken for the constant-one wire. -/
def call (id : CircuitId) (minted : List Variable) : Move → Call
  | input leaf => .circuitInput id leaf
  | internal label => .circuitInternal id label
  | output place => .addOutput id (minted.getD place .one)
  | aside call => call

end Move

/-- Two scopes have the same structure: they count as many inputs, and the variables of the one can
be renamed to those of the other in order, so that outputs become outputs. -/
structure Scope.SameShape (scope other : Scope) : Prop where
  inputCount : scope.inputCount = other.inputCount
  size : scope.vars.size = other.vars.size
  places : ∃ places : List Nat,
    scope.outputs.toList.map some = places.map (scope.vars[·]?) ∧
      other.outputs.toList.map some = places.map (other.vars[·]?)
  renamed : ∃ rename : Variable → Variable,
    (∀ v ∈ scope.vars, ∀ w ∈ scope.vars, v < w → rename v < rename w) ∧
      scope.vars.map rename = other.vars ∧ scope.outputs.map rename = other.outputs

/-- Renames the variables of a list to those at the same places of another list. -/
def renameByPlace (vars others : List Variable) (var : Variable) : Variable :=
  others.getD (vars.idxOf var) .one

section Renaming

variable {vars others : List Variable}

theorem nodup_of_ascending (hvars : vars.Pairwise (· < ·)) : vars.Nodup := by
  refine hvars.imp ?_
  rintro v w hlt rfl
  exact Nat.lt_irrefl _ (Variable.lt_iff.mp hlt)

theorem renameByPlace_getElem (hvars : vars.Pairwise (· < ·)) {i : Nat} (hi : i < vars.length)
    (hi' : i < others.length) : renameByPlace vars others vars[i] = others[i] := by
  rw [renameByPlace, (nodup_of_ascending hvars).idxOf_getElem i hi]
  exact List.getD_eq_getElem others .one hi'

theorem map_renameByPlace (hvars : vars.Pairwise (· < ·)) (hlength : vars.length = others.length) :
    vars.map (renameByPlace vars others) = others := by
  apply List.ext_getElem
  · rw [List.length_map, hlength]
  · intro i hi hi'
    rw [List.getElem_map, renameByPlace_getElem hvars _ hi']

theorem lt_of_getElem_lt (hvars : vars.Pairwise (· < ·)) {i j : Nat} (hi : i < vars.length)
    (hj : j < vars.length) (hlt : vars[i] < vars[j]) : i < j := by
  by_contra hge
  have hnumbers := Variable.lt_iff.mp hlt
  rcases Nat.eq_or_lt_of_le (Nat.le_of_not_lt hge) with rfl | hji
  · exact Nat.lt_irrefl _ hnumbers
  · have hgt := List.pairwise_iff_getElem.mp hvars j i hj hi hji
    exact Nat.lt_asymm hnumbers (Variable.lt_iff.mp hgt)

theorem renameByPlace_lt (hvars : vars.Pairwise (· < ·)) (hothers : others.Pairwise (· < ·))
    (hlength : vars.length = others.length) {v w : Variable} (hv : v ∈ vars) (hw : w ∈ vars)
    (hlt : v < w) : renameByPlace vars others v < renameByPlace vars others w := by
  obtain ⟨i, hi, rfl⟩ := List.mem_iff_getElem.mp hv
  obtain ⟨j, hj, rfl⟩ := List.mem_iff_getElem.mp hw
  rw [renameByPlace_getElem hvars hi (hlength ▸ hi), renameByPlace_getElem hvars hj (hlength ▸ hj)]
  exact List.pairwise_iff_getElem.mp hothers i j _ _ (lt_of_getElem_lt hvars hi hj hlt)

theorem exists_renaming (hvars : vars.Pairwise (· < ·)) (hothers : others.Pairwise (· < ·))
    (hlength : vars.length = others.length) :
    ∃ rename : Variable → Variable,
      (∀ v ∈ vars, ∀ w ∈ vars, v < w → rename v < rename w) ∧ vars.map rename = others :=
  ⟨renameByPlace vars others, fun _ hv _ hw => renameByPlace_lt hvars hothers hlength hv hw,
    map_renameByPlace hvars hlength⟩

end Renaming

/-- A renaming of the variables carries over to those that are listed by place. -/
theorem map_eq_of_places {vars others listed listed' : Array Variable} {places : List Nat}
    {rename : Variable → Variable} (hvars : vars.map rename = others)
    (hlisted : listed.toList.map some = places.map (vars[·]?))
    (hlisted' : listed'.toList.map some = places.map (others[·]?)) :
    listed.map rename = listed' := by
  have hplace : ∀ place : Nat, others[place]? = (vars[place]?).map rename := by
    intro place
    rw [← hvars, Array.getElem?_map]
  apply Array.toList_inj.mp
  apply List.map_injective_iff.mpr fun _ _ => Option.some.inj
  calc (listed.map rename).toList.map some
      = (listed.toList.map some).map (Option.map rename) := by simp [Function.comp_def]
    _ = places.map fun place => (vars[place]?).map rename := by
        rw [hlisted, List.map_map]
        rfl
    _ = places.map (others[·]?) := by simp only [hplace]
    _ = listed'.toList.map some := hlisted'.symm

/-- What the steps of a block add to a scope. -/
structure Scope.Grown (before : Scope) (body : List BlockStep) (after : Scope) : Prop where
  inputCount : after.inputCount =
    before.inputCount + body.countP fun step => step.role? = some .input
  size : after.vars.size = before.vars.size + body.countP fun step => step.role?.isSome
  vars : before.vars.toList <+: after.vars.toList
  outputs : after.outputs.toList.map some =
    before.outputs.toList.map some ++ (body.filterMap BlockStep.place?).map (after.vars[·]?)

namespace Scope.Grown

variable {before after : Scope} {body : List BlockStep}

theorem nil (scope : Scope) : scope.Grown [] scope :=
  ⟨rfl, rfl, List.prefix_rfl, (List.append_nil _).symm⟩

theorem record {step : BlockStep} {role : Role} (hrole : step.role? = some role) {var : Variable}
    (h : (before.record role var).Grown body after) : before.Grown (step :: body) after where
  inputCount := by
    rw [h.inputCount, List.countP_cons, hrole, Scope.record]
    cases role with
    | input =>
        simp only [decide_true, if_true]
        omega
    | internal => rfl
  size := by
    rw [h.size, List.countP_cons, hrole, vars_record, Array.size_push]
    simp only [Option.isSome_some, if_true]
    omega
  vars := by
    refine List.IsPrefix.trans ?_ h.vars
    rw [vars_record, Array.toList_push]
    exact List.prefix_append _ _
  outputs := by
    have hplace : step.place? = none := by
      cases step with
      | output place => cases hrole
      | input | internal => rfl
    rw [List.filterMap_cons_none hplace]
    exact h.outputs

theorem mark {place : Nat} {var : Variable} (hplace : before.vars[place]? = some var)
    (h : (before.mark var).Grown body after) : before.Grown (.output place :: body) after where
  inputCount := h.inputCount
  size := h.size
  vars := h.vars
  outputs := by
    have hvar : after.vars[place]? = some var := by
      rw [← Array.getElem?_toList] at hplace ⊢
      obtain ⟨hlt, rfl⟩ := List.getElem?_eq_some_iff.mp hplace
      exact List.prefix_iff_getElem?.mp h.vars place hlt
    have hbody : (BlockStep.output place :: body).filterMap BlockStep.place? =
        place :: body.filterMap BlockStep.place? := rfl
    rw [h.outputs, hbody, List.map_cons, hvar]
    simp [Scope.mark]

/-- Scopes that are described by the same steps from the start have the same shape. -/
theorem sameShape {a b : CircuitId} {scope other : Scope}
    (h : (Scope.empty a).Grown body scope) (h' : (Scope.empty b).Grown body other)
    (hascending : scope.vars.toList.Pairwise (· < ·))
    (hascending' : other.vars.toList.Pairwise (· < ·)) : scope.SameShape other := by
  have hsize : scope.vars.size = other.vars.size := h.size.trans h'.size.symm
  have houtputs : scope.outputs.toList.map some =
      (body.filterMap BlockStep.place?).map (scope.vars[·]?) := h.outputs
  have houtputs' : other.outputs.toList.map some =
      (body.filterMap BlockStep.place?).map (other.vars[·]?) := h'.outputs
  obtain ⟨rename, hmono, hmap⟩ := exists_renaming hascending hascending' hsize
  have hvars : scope.vars.map rename = other.vars :=
    Array.toList_inj.mp (Array.toList_map.trans hmap)
  refine ⟨h.inputCount.trans h'.inputCount.symm, hsize, ⟨_, houtputs, houtputs'⟩, rename, ?_,
    hvars, map_eq_of_places hvars houtputs houtputs'⟩
  intro v hv w hw
  exact hmono v (Array.mem_toList_iff.mpr hv) w (Array.mem_toList_iff.mpr hw)

end Scope.Grown

namespace Draft

variable {K L : PrimeField} {draft : Draft K} {id : CircuitId} {scope : Scope}

/-- The variables that the answer to a move gives to the block. -/
def given (move : Move) (answer : Except BuildError (Reply K)) : List Variable :=
  if move.step?.isSome then (varOf? answer).toList else []

/-- The calls that moves make one after the other, each knowing the variables that the block was
given before it. -/
def callsOf (draft : Draft K) (id : CircuitId) (minted : List Variable) : List Move → List Call
  | [] => []
  | move :: rest =>
      let call := move.call id minted
      let outcome := draft.perform call
      call :: outcome.state.callsOf id (minted ++ given move outcome.answer) rest

/-- No move that is a step of the block is refused. -/
def GrantsSteps (draft : Draft K) (id : CircuitId) (minted : List Variable)
    (moves : List Move) : Prop :=
  ∀ move answer, (move, answer) ∈ moves.zip (draft.answers (draft.callsOf id minted moves)) →
    move.step?.isSome = true → answer.isOk = true

theorem GrantsSteps.nil (draft : Draft K) (id : CircuitId) (minted : List Variable) :
    draft.GrantsSteps id minted [] := by
  intro move answer hmem
  rw [List.zip_nil_left] at hmem
  cases hmem

theorem GrantsSteps.cons {minted : List Variable} {move : Move} {rest : List Move}
    (hfirst : move.step?.isSome = true → (draft.perform (move.call id minted)).answer.isOk = true)
    (hrest : (draft.perform (move.call id minted)).state.GrantsSteps id
      (minted ++ given move (draft.perform (move.call id minted)).answer) rest) :
    draft.GrantsSteps id minted (move :: rest) := by
  intro later answer hmem hstep
  rw [callsOf, answers_cons, List.zip_cons_cons, List.mem_cons] at hmem
  rcases hmem with heq | hmem
  · obtain ⟨rfl, rfl⟩ := Prod.mk.inj heq
    exact hfirst hstep
  · exact hrest later answer hmem hstep

/-- A step that adds a variable is granted while there are numbers left. -/
theorem Reachable.perform_minting (h : draft.Reachable) (hscope : draft.find? id = some scope)
    {move : Move} {step : BlockStep} {role : Role} (hstep : move.step? = some step)
    (hrole : step.role? = some role) {minted : List Variable}
    (hleft : (draft.perform (move.call id minted)).answer ≠ .error .variablesExhausted) :
    ∃ var, (draft.perform (move.call id minted)).answer.isOk = true ∧
      (draft.perform (move.call id minted)).state.find? id = some (scope.record role var) ∧
      (scope.record role var).vars.toList =
        scope.vars.toList ++ given move (draft.perform (move.call id minted)).answer := by
  have hcall : ∃ d, (move.call id minted).declaration? = some d ∧ d.scope = id ∧
      d.origin.role = role := by
    cases move with
    | input leaf | internal label =>
        cases hstep
        cases hrole
        exact ⟨_, rfl, rfl, rfl⟩
    | output place =>
        cases hstep
        cases hrole
    | aside call => cases hstep
  obtain ⟨d, hd, rfl, rfl⟩ := hcall
  obtain ⟨var, hnext, hanswer, hafter⟩ := perform_declaration h.consistent hd hscope hleft
  have hone := ne_one_of_next h.recorded.started hnext
  refine ⟨var, by rw [hanswer]; rfl, hafter, ?_⟩
  rw [given, hstep, hanswer, varOf?_eq_some_iff.mpr ⟨rfl, hone⟩, Scope.vars_record]
  exact Array.toList_push

theorem Reachable.perform_marking (h : draft.Reachable) (hscope : draft.find? id = some scope)
    {place : Nat} (hplace : place < scope.vars.size) :
    (draft.perform ((Move.output place).call id scope.vars.toList)).answer = .ok .marked ∧
      (draft.perform ((Move.output place).call id scope.vars.toList)).state.find? id =
        some (scope.mark scope.vars[place]) := by
  have hvar : scope.vars.toList.getD place .one = scope.vars[place] :=
    (List.getD_eq_getElem _ _ hplace).trans (Array.getElem_toList hplace)
  have howned := (h.recorded.contains_iff (h.consistent.mem_of_find? hscope)).mpr
    (Array.getElem_mem hplace)
  rw [Move.call, hvar]
  exact perform_addOutput h.consistent hscope howned

/-- Whatever is called between the steps of a block, they are all granted and add to the scope what
they say. -/
theorem Reachable.grown (h : draft.Reachable) {minted : List Variable} {moves : List Move}
    (hscope : draft.find? id = some scope) (hminted : scope.vars.toList = minted)
    (hplaced : BlockStep.placed scope.vars.size (moves.filterMap Move.step?) = true)
    (hapart : ∀ call, Move.aside call ∈ moves → call.addressee? ≠ some id)
    (hleft : ∀ answer ∈ draft.answers (draft.callsOf id minted moves),
      answer ≠ .error .variablesExhausted) :
    draft.GrantsSteps id minted moves ∧ ∃ after,
      (draft.run (draft.callsOf id minted moves)).find? id = some after ∧
        scope.Grown (moves.filterMap Move.step?) after := by
  induction moves generalizing draft scope minted with
  | nil => exact ⟨.nil draft id minted, scope, hscope, .nil scope⟩
  | cons move rest ih =>
      -- The block has been given just what its scope holds: a step adds the same to both, and a call
      -- aside adds to neither.
      subst hminted
      rw [callsOf, answers_cons] at hleft
      obtain ⟨hfirst, hlater⟩ := List.forall_mem_cons.mp hleft
      have hnext := h.perform (move.call id scope.vars.toList)
      have hasides : ∀ call, Move.aside call ∈ rest → call.addressee? ≠ some id :=
        fun call hcall => hapart call (List.mem_cons_of_mem move hcall)
      cases move with
      | input leaf | internal label =>
          obtain ⟨var, hok, hafter, hvars⟩ := h.perform_minting hscope rfl rfl hfirst
          obtain ⟨hrest, after, hfind, hgrown⟩ := ih hnext hafter hvars
            (by simpa [BlockStep.placed, Move.step?] using hplaced) hasides hlater
          exact ⟨.cons (fun _ => hok) hrest, after, hfind, .record rfl hgrown⟩
      | output place =>
          obtain ⟨hplace, hlaterPlaced⟩ : place < scope.vars.size ∧
              BlockStep.placed scope.vars.size (rest.filterMap Move.step?) = true := by
            simpa [BlockStep.placed, Move.step?] using hplaced
          obtain ⟨hanswer, hafter⟩ := h.perform_marking hscope hplace
          have hvars : scope.vars.toList =
              scope.vars.toList ++ given (Move.output place) (.ok .marked : Except _ (Reply K)) :=
            (List.append_nil _).symm
          rw [← hanswer] at hvars
          obtain ⟨hrest, after, hfind, hgrown⟩ := ih hnext hafter hvars hlaterPlaced hasides hlater
          exact ⟨.cons (fun _ => by rw [hanswer]; rfl) hrest, after, hfind,
            .mark (getElem?_pos scope.vars place hplace) hgrown⟩
      | aside call =>
          have hafter := (perform_turn h.consistent call).find?_of_not_addressed h.consistent
            (hapart call List.mem_cons_self) hscope
          have hvars := (List.append_nil scope.vars.toList).symm
          obtain ⟨hrest, hgrown⟩ := ih hnext hafter hvars hplaced hasides hlater
          exact ⟨.cons nofun hrest, hgrown⟩

/-- The moves describe the block `body` in a registered scope that is still empty. The calls between
its steps are not for that scope, and no call finds the numbers of the variables used up. -/
structure DescribesBlock (draft : Draft K) (id : CircuitId) (body : List BlockStep)
    (moves : List Move) : Prop where
  reachable : draft.Reachable
  blank : ∃ scope, draft.find? id = some scope ∧ scope.vars = #[] ∧ scope.outputs = #[]
  steps : moves.filterMap Move.step? = body
  placed : BlockStep.placed 0 body = true
  apart : ∀ call, Move.aside call ∈ moves → call.addressee? ≠ some id
  left : ∀ answer ∈ draft.answers (draft.callsOf id [] moves), answer ≠ .error .variablesExhausted

theorem Reachable.eq_empty (h : draft.Reachable) (hscope : draft.find? id = some scope)
    (hvars : scope.vars = #[]) (houtputs : scope.outputs = #[]) : scope = .empty id := by
  have hmem := h.consistent.mem_of_find? hscope
  have hid := h.consistent.id_of_find? hscope
  have hone := (h.recorded.scopes scope hmem).one
  have hcount := h.recorded.inputCount_le hmem
  rw [hvars] at hcount
  obtain ⟨_, _, inputCount, _, _⟩ := scope
  obtain rfl : inputCount = 0 := Nat.le_zero.mp hcount
  cases hid
  cases hone
  cases hvars
  cases houtputs
  rfl

theorem DescribesBlock.grown {body : List BlockStep} {moves : List Move}
    (h : draft.DescribesBlock id body moves) :
    draft.GrantsSteps id [] moves ∧ ∃ after,
      (draft.run (draft.callsOf id [] moves)).find? id = some after ∧
        (Scope.empty id).Grown body after := by
  obtain ⟨scope, hscope, hvars, houtputs⟩ := h.blank
  obtain rfl := h.reachable.eq_empty hscope hvars houtputs
  obtain rfl := h.steps
  exact h.reachable.grown hscope rfl h.placed h.apart h.left

/-- A block can be described in any empty scope, at any time and whatever else is called meanwhile:
no step is refused, each scope grows by what the steps add and nothing else, and the two that come
out have the same shape. -/
theorem DescribesBlock.relocates {first : Draft K} {second : Draft L} {a b : CircuitId}
    {body : List BlockStep} {moves moves' : List Move} (h : first.DescribesBlock a body moves)
    (h' : second.DescribesBlock b body moves') :
    first.GrantsSteps a [] moves ∧ second.GrantsSteps b [] moves' ∧ ∃ scope other,
      (first.run (first.callsOf a [] moves)).find? a = some scope ∧
      (second.run (second.callsOf b [] moves')).find? b = some other ∧
      (Scope.empty a).Grown body scope ∧ (Scope.empty b).Grown body other ∧
      scope.SameShape other := by
  obtain ⟨hgrants, scope, hscope, hgrown⟩ := h.grown
  obtain ⟨hgrants', other, hother, hgrown'⟩ := h'.grown
  refine ⟨hgrants, hgrants', scope, other, hscope, hother, hgrown, hgrown', ?_⟩
  have hafter := h.reachable.run (first.callsOf a [] moves)
  have hafter' := h'.reachable.run (second.callsOf b [] moves')
  exact hgrown.sameShape hgrown'
    (hafter.recorded.ascending (hafter.consistent.mem_of_find? hscope))
    (hafter'.recorded.ascending (hafter'.consistent.mem_of_find? hother))

/-- Two inputs and a derived value, which is an output like the first input. -/
def sumBlock : List BlockStep :=
  [.input, .input, .internal, .output 2, .output 0]

/-- Two descriptions of that block in the same circuit, the second one after the first. -/
def twice : List Move × List Move :=
  ([.input (.plain "a"), .aside (.secretInput (.plain "s")), .input (.plain "b"),
      .aside (.register ⟨9⟩), .internal "sum", .output 2, .aside (.addOutput .root ⟨2⟩), .output 0],
    [.aside (.circuitInput ⟨7⟩ (.plain "late")), .input (.plain "c"), .input (.plain "d"),
      .aside (.internal "m"), .internal "sum", .output 2, .output 0, .aside .registerNext])

theorem relocates_twice :
    ∃ first second : Draft .babyBear,
      first.DescribesBlock ⟨7⟩ sumBlock twice.1 ∧
      second.DescribesBlock ⟨9⟩ sumBlock twice.2 ∧
      ∃ scope other,
        (first.run (first.callsOf ⟨7⟩ [] twice.1)).find? ⟨7⟩ = some scope ∧
        (second.run (second.callsOf ⟨9⟩ [] twice.2)).find? ⟨9⟩ = some other ∧
        (Scope.empty ⟨7⟩).Grown sumBlock scope ∧
        (Scope.empty ⟨9⟩).Grown sumBlock other ∧
        scope.SameShape other := by
  let first : Draft .babyBear := (empty {}).run [.register ⟨7⟩]
  let second : Draft .babyBear := first.run (first.callsOf ⟨7⟩ [] twice.1)
  have hreachable : first.Reachable := (isNew_empty {}).reachable.run _
  have h : first.DescribesBlock ⟨7⟩ sumBlock twice.1 :=
    { reachable := hreachable
      blank := ⟨.empty ⟨7⟩, by decide +kernel, rfl, rfl⟩
      steps := rfl
      placed := rfl
      apart := by simp [twice, Call.addressee?, Call.declaration?, CircuitId.root]
      left := by decide +kernel }
  have h' : second.DescribesBlock ⟨9⟩ sumBlock twice.2 :=
    { reachable := hreachable.run _
      blank := ⟨.empty ⟨9⟩, by decide +kernel, rfl, rfl⟩
      steps := rfl
      placed := rfl
      apart := by simp [twice, Call.addressee?, Call.declaration?, CircuitId.root]
      left := by decide +kernel }
  exact ⟨first, second, h, h', (h.relocates h').2.2⟩

end Draft

end CircuitDraft
