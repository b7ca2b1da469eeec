import CircuitDraft.Proofs.RegistryOutcomes

/-!
A registry that is used on its own, without a draft around it. Scopes come to it from outside with
whatever they hold, and those that are found in it are changed in their place.
-/

namespace CircuitDraft

theorem Scope.id_of_declare {scope after : Scope} {role : Role} {counter counter' : Counter}
    {var : Variable} (h : scope.declare role counter = .ok (var, counter', after)) :
    after.id = scope.id := by
  rw [declare] at h
  cases hmint : counter.mint with
  | error cause =>
      rw [hmint] at h
      cases h
  | ok minted =>
      rw [hmint] at h
      cases h
      rfl

theorem Scope.id_of_addOutput {scope after : Scope} {var : Variable}
    (h : scope.addOutput var = .ok after) : after.id = scope.id := by
  rw [addOutput] at h
  split at h
  · cases h
    rfl
  · cases h

namespace Registry

variable {registry : Registry}

/-- A request that changes a registry. The counter of a declaration belongs to whoever makes it. -/
inductive Request
  | register (id : CircuitId) (scope : Scope)
  | registerNext
  | declare (id : CircuitId) (role : Role) (counter : Counter)
  | addOutput (id : CircuitId) (var : Variable)
deriving DecidableEq

/-- The registry that a request leaves behind, granted or refused. -/
def serve (registry : Registry) : Request → Registry
  | .register id scope => (registry.register id scope).state
  | .registerNext => registry.registerNext.state
  | .declare id role counter =>
      (Outcome.ofStep (counter, registry) (registry.declare id role counter)).state.2
  | .addOutput id var => (Outcome.ofUpdate registry (registry.addOutput id var)).state

def serveAll (registry : Registry) (requests : List Request) : Registry :=
  requests.foldl serve registry

/-- A registry that a sequence of requests on a new one leads to, refused requests included. -/
def Reached (registry : Registry) : Prop :=
  ∃ requests : List Request, new.serveAll requests = registry

/-- The ways in which a request can change a registry. -/
inductive Change (registry : Registry) : Registry → Prop
  | unchanged : Change registry registry
  | appended {scope : Scope} (hkey : scope.id.isReserved = false)
      (hfree : registry.contains scope.id = false) :
      Change registry (registry.append scope registry.nextReserved)
  | issued {id : CircuitId} (hnext : registry.nextReserved = some id) :
      Change registry (registry.enroll id id.succ?)
  | replaced {id : CircuitId} {scope : Scope} (hid : scope.id = id) :
      Change registry (registry.set id scope)

theorem Change.consistent {after : Registry} (hchange : registry.Change after)
    (h : registry.Consistent) : after.Consistent := by
  cases hchange with
  | unchanged => exact h
  | appended hkey hfree => exact h.append _ hkey hfree
  | issued hnext => exact h.enroll_next hnext
  | replaced hid => exact h.update _ fun _ _ => hid

/-- The checks of a registration in the order in which they are made. -/
theorem Consistent.register_eq (h : registry.Consistent) (id : CircuitId) (scope : Scope) :
    registry.register id scope =
      if id.isReserved then ⟨.error (.identityReserved id), registry, [.rejectedReserved id]⟩
      else if scope.id ≠ id then ⟨.error (.identityMismatch scope.id id), registry, []⟩
      else if id ∈ registry.ids then
        ⟨.error (.identityTaken id), registry, [.rejectedDuplicate id]⟩
      else
        ⟨.ok (), registry.append scope registry.nextReserved,
          [.registered id (registry.size + 1)]⟩ := by
  split_ifs with hreserved hne hknown
  · exact register_reserved hreserved
  · exact register_mismatch hne (Bool.eq_false_iff.mpr hreserved)
  · exact register_taken (not_not.mp hne) (Bool.eq_false_iff.mpr hreserved)
      (h.contains_iff.mpr hknown)
  · exact register_free (not_not.mp hne) (Bool.eq_false_iff.mpr hreserved)
      (h.contains_eq_false_iff.mpr hknown)

theorem Consistent.serve_change (h : registry.Consistent) (request : Request) :
    registry.Change (registry.serve request) := by
  cases request with
  | register id scope =>
      rw [serve, h.register_eq]
      split_ifs with hreserved hne hknown
      · exact .unchanged
      · exact .unchanged
      · exact .unchanged
      · obtain rfl := not_not.mp hne
        exact .appended (Bool.eq_false_iff.mpr hreserved)
          (h.contains_eq_false_iff.mpr hknown)
  | registerNext =>
      rw [serve]
      cases hnext : registry.nextReserved with
      | none =>
          rw [registerNext_spent hnext]
          exact .unchanged
      | some id =>
          rw [h.registerNext_issued hnext]
          exact .issued hnext
  | declare id role counter =>
      rw [serve]
      cases hscope : registry.find? id with
      | none =>
          rw [declare_unknown hscope]
          exact .unchanged
      | some scope =>
          rw [declare_of_find? hscope]
          cases hdeclare : scope.declare role counter with
          | error cause => exact .unchanged
          | ok minted =>
              have hid := Scope.id_of_declare hdeclare
              exact .replaced (hid.trans (h.id_of_find? hscope))
  | addOutput id var =>
      rw [serve]
      cases hscope : registry.find? id with
      | none =>
          rw [addOutput_unknown hscope]
          exact .unchanged
      | some scope =>
          rw [addOutput_of_find? hscope]
          cases hmark : scope.addOutput var with
          | error cause => exact .unchanged
          | ok after =>
              have hid := Scope.id_of_addOutput hmark
              exact .replaced (hid.trans (h.id_of_find? hscope))

theorem Consistent.serveAll (h : registry.Consistent) (requests : List Request) :
    (registry.serveAll requests).Consistent := by
  induction requests generalizing registry with
  | nil => exact h
  | cons request rest ih => exact ih ((h.serve_change request).consistent h)

theorem Reached.consistent (h : registry.Reached) : registry.Consistent := by
  obtain ⟨requests, rfl⟩ := h
  exact consistent_new.serveAll requests

/-- `after` has `scope` in the place of the one registered under `id`, and is otherwise the same. -/
structure Replaced (registry : Registry) (id : CircuitId) (scope : Scope) (after : Registry) :
    Prop where
  find?_self : after.find? id = some scope
  find?_other : ∀ other, other ≠ id → after.find? other = registry.find? other
  toList : after.toList = registry.toList.map fun old => if old.id = id then scope else old
  nextReserved : after.nextReserved = registry.nextReserved

theorem Consistent.replaced_set (h : registry.Consistent) {id : CircuitId} {old scope : Scope}
    (hold : registry.find? id = some old) (hid : scope.id = id) :
    registry.Replaced id scope (registry.set id scope) where
  find?_self := by
    have hself := h.find?_update_self id (f := fun _ => scope) fun _ _ => hid
    rwa [hold] at hself
  find?_other _ hne := h.find?_update_of_ne (fun _ _ => hid) hne
  toList := h.toList_update id fun _ => scope
  nextReserved := rfl

theorem Consistent.exists_declare (h : registry.Consistent) {id : CircuitId} {scope scope' : Scope}
    {role : Role} {counter counter' : Counter} {var : Variable}
    (hscope : registry.find? id = some scope)
    (hdeclare : scope.declare role counter = .ok (var, counter', scope')) :
    ∃ after, registry.declare id role counter = .ok (var, counter', after) ∧
      registry.Replaced id scope' after := by
  have hid := (Scope.id_of_declare hdeclare).trans (h.id_of_find? hscope)
  refine ⟨registry.set id scope', ?_, h.replaced_set hscope hid⟩
  rw [declare_of_find? hscope, hdeclare]
  rfl

theorem Consistent.exists_addOutput (h : registry.Consistent) {id : CircuitId}
    {scope scope' : Scope} {var : Variable} (hscope : registry.find? id = some scope)
    (hmark : scope.addOutput var = .ok scope') :
    ∃ after, registry.addOutput id var = .ok after ∧ registry.Replaced id scope' after := by
  have hid := (Scope.id_of_addOutput hmark).trans (h.id_of_find? hscope)
  refine ⟨registry.set id scope', ?_, h.replaced_set hscope hid⟩
  rw [addOutput_of_find? hscope, hmark]
  rfl

/-- What the index finds is what a search through the list finds, and stays so: a scope is replaced
in its place and nowhere else, and a registration that fails one of its checks changes nothing. -/
structure IndexAgrees (registry : Registry) : Prop where
  find? : ∀ id, registry.find? id = registry.toList.find? fun scope => scope.id = id
  find?_iff : ∀ id scope, registry.find? id = some scope ↔ scope ∈ registry.toList ∧ scope.id = id
  contains : ∀ id, registry.contains id = (registry.find? id).isSome
  nodup_ids : registry.ids.Nodup
  head : registry.toList.head? = some registry.root
  id_root : registry.root.id = .root
  find?_root : registry.find? .root = some registry.root
  reserved : (registry.ids.filter CircuitId.isReserved).map (·.key.toNat) =
    List.range' CircuitId.firstReserved.key.toNat
      (registry.frontier - CircuitId.firstReserved.key.toNat)
  declare : ∀ id scope role counter var counter' scope', registry.find? id = some scope →
    scope.declare role counter = .ok (var, counter', scope') →
      ∃ after, registry.declare id role counter = .ok (var, counter', after) ∧
        registry.Replaced id scope' after
  addOutput : ∀ id scope var scope', registry.find? id = some scope →
    scope.addOutput var = .ok scope' →
      ∃ after, registry.addOutput id var = .ok after ∧ registry.Replaced id scope' after
  register : ∀ id scope, (registry.register id scope).answer =
    if id.isReserved then .error (.identityReserved id)
    else if scope.id ≠ id then .error (.identityMismatch scope.id id)
    else if id ∈ registry.ids then .error (.identityTaken id)
    else .ok ()
  registered : ∀ id scope, (registry.register id scope).answer = .ok () →
    (registry.register id scope).state.toList = registry.toList ++ [scope]
  refused : ∀ id scope cause, (registry.register id scope).answer = .error cause →
    (registry.register id scope).state = registry

theorem Reached.indexAgrees (h : registry.Reached) : registry.IndexAgrees where
  find? := h.consistent.find?_eq_find?
  find?_iff _ _ := h.consistent.find?_eq_some_iff
  contains := h.consistent.contains_eq_isSome
  nodup_ids := h.consistent.nodup_ids
  head := by
    rw [Registry.toList, List.head?_eq_getElem?, Array.getElem?_toList]
    exact getElem?_pos registry.scopes.entries 0 registry.size_pos
  id_root := h.consistent.id_root
  find?_root := h.consistent.find?_root
  reserved := h.consistent.reserved
  declare _ _ _ _ _ _ _ := h.consistent.exists_declare
  addOutput _ _ _ _ := h.consistent.exists_addOutput
  register := by
    intro id scope
    rw [h.consistent.register_eq]
    split_ifs <;> rfl
  registered := by
    intro id scope hanswer
    rw [h.consistent.register_eq] at hanswer ⊢
    split_ifs at hanswer ⊢
    exact registry.toList_append scope registry.nextReserved
  refused := by
    intro id scope cause hanswer
    rw [h.consistent.register_eq] at hanswer ⊢
    split_ifs at hanswer ⊢ <;> rfl

/-- A registry with a scope that came with variables of its own. Of the requests for it, one was
refused for each reason that a registry has. -/
def seeded : Registry :=
  new.serveAll
    [.register ⟨7⟩ ⟨⟨7⟩, .one, 1, #[⟨4⟩, ⟨9⟩], #[⟨9⟩]⟩, .register ⟨8⟩ (.empty ⟨7⟩),
      .register ⟨7⟩ (.empty ⟨7⟩), .register .firstReserved (.empty .firstReserved),
      .registerNext, .declare ⟨7⟩ .input ⟨some ⟨12⟩⟩, .declare ⟨7⟩ .internal ⟨none⟩,
      .declare ⟨3⟩ .input {}, .addOutput ⟨7⟩ ⟨12⟩, .addOutput ⟨7⟩ ⟨5⟩]

theorem indexAgrees_seeded :
    seeded.Reached ∧ seeded.IndexAgrees ∧
      seeded.toList =
        [.empty .root, ⟨⟨7⟩, .one, 2, #[⟨4⟩, ⟨9⟩, ⟨12⟩], #[⟨9⟩, ⟨12⟩]⟩, .empty .firstReserved] := by
  have hreached : seeded.Reached := ⟨_, rfl⟩
  exact ⟨hreached, hreached.indexAgrees, by decide +kernel⟩

end Registry

end CircuitDraft
