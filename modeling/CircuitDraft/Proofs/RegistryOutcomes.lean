import CircuitDraft.Proofs.RegistryConsistency

/-!
What each operation does to a registry, with the conditions under which it is refused.
-/

namespace CircuitDraft

@[simp]
theorem Scope.id_empty (id : CircuitId) : (empty id).id = id :=
  rfl

namespace Registry

variable {registry : Registry}

theorem Consistent.declareRoot_eq (h : registry.Consistent) (role : Role) (counter : Counter) :
    registry.declareRoot role counter = registry.declare .root role counter := by
  rw [declareRoot, declare, h.find?_root]
  have hset : registry.setRoot = registry.set .root := by
    funext scope
    simp only [setRoot, set, h.indexed.modifyFirst_eq registry.size_pos h.id_root]
  rw [hset]

theorem set_of_find? {id : CircuitId} {scope : Scope} (hscope : registry.find? id = some scope)
    (f : Scope → Scope) : registry.set id (f scope) = registry.update id f := by
  simp only [set, update, registry.scopes.modify_const_of_find? id f hscope]

theorem declare_unknown {id : CircuitId} (hnone : registry.find? id = none) (role : Role)
    (counter : Counter) : registry.declare id role counter = .error (.unknownCircuit id) := by
  rw [declare, hnone]

theorem declare_of_find? {id : CircuitId} {scope : Scope} (hscope : registry.find? id = some scope)
    (role : Role) (counter : Counter) :
    registry.declare id role counter =
      (scope.declare role counter).map fun (var, counter, after) =>
        (var, counter, registry.set id after) := by
  rw [declare, hscope]

theorem addOutput_unknown {id : CircuitId} (hnone : registry.find? id = none) (var : Variable) :
    registry.addOutput id var = .error (.unknownCircuit id) := by
  rw [addOutput, hnone]

theorem addOutput_of_find? {id : CircuitId} {scope : Scope}
    (hscope : registry.find? id = some scope) (var : Variable) :
    registry.addOutput id var = (scope.addOutput var).map (registry.set id) := by
  rw [addOutput, hscope]

theorem declare_exhausted {id : CircuitId} {scope : Scope} {counter : Counter}
    (hscope : registry.find? id = some scope) (hnext : counter.next = none) (role : Role) :
    registry.declare id role counter = .error .variablesExhausted := by
  simp only [declare, hscope, Scope.declare, Counter.mint, hnext]
  rfl

theorem declare_minted {id : CircuitId} {scope : Scope} {counter : Counter} {var : Variable}
    (hscope : registry.find? id = some scope) (hnext : counter.next = some var) (role : Role) :
    registry.declare id role counter =
      .ok (var, ⟨var.succ?⟩, registry.update id fun scope => scope.record role var) := by
  rw [← set_of_find? hscope]
  simp only [declare, hscope, Scope.declare, Counter.mint, hnext]
  rfl

theorem insert_free {id : CircuitId} {scope : Scope} (hid : scope.id = id)
    (hfree : registry.contains id = false) :
    registry.insert id scope =
      ⟨.ok (), registry.append scope registry.nextReserved,
        [.registered id (registry.size + 1)]⟩ := by
  subst hid
  have hsize := registry.size_append scope registry.nextReserved
  rw [insert, if_neg fun hne => hne rfl, hfree, if_neg Bool.false_ne_true]
  exact congrArg (fun size => Outcome.mk (.ok ()) (registry.append scope registry.nextReserved)
    [Event.registered scope.id size]) hsize

theorem register_reserved {id : CircuitId} (hreserved : id.isReserved = true) {scope : Scope} :
    registry.register id scope =
      ⟨.error (.identityReserved id), registry, [.rejectedReserved id]⟩ := by
  rw [register, if_pos hreserved]
  rfl

theorem register_mismatch {id : CircuitId} {scope : Scope} (hne : scope.id ≠ id)
    (hkey : id.isReserved = false) :
    registry.register id scope = ⟨.error (.identityMismatch scope.id id), registry, []⟩ := by
  rw [register, hkey, if_neg Bool.false_ne_true, insert, if_pos hne]
  rfl

theorem register_taken {id : CircuitId} {scope : Scope} (hid : scope.id = id)
    (hkey : id.isReserved = false) (hknown : registry.contains id = true) :
    registry.register id scope =
      ⟨.error (.identityTaken id), registry, [.rejectedDuplicate id]⟩ := by
  rw [register, hkey, if_neg Bool.false_ne_true, insert, if_neg fun hne => hne hid, if_pos hknown]
  rfl

theorem register_free {id : CircuitId} {scope : Scope} (hid : scope.id = id)
    (hkey : id.isReserved = false) (hfree : registry.contains id = false) :
    registry.register id scope =
      ⟨.ok (), registry.append scope registry.nextReserved,
        [.registered id (registry.size + 1)]⟩ := by
  rw [register, hkey, if_neg Bool.false_ne_true, insert_free hid hfree]

theorem registerNext_spent (hnext : registry.nextReserved = none) :
    registry.registerNext = ⟨.error .identitiesExhausted, registry, []⟩ := by
  rw [registerNext, hnext]
  rfl

theorem Consistent.registerNext_issued (h : registry.Consistent) {id : CircuitId}
    (hnext : registry.nextReserved = some id) :
    registry.registerNext =
      ⟨.ok id, registry.enroll id id.succ?, [.registered id (registry.size + 1)]⟩ := by
  simp only [registerNext, hnext, insert_free (Scope.id_empty id) (h.next_free hnext).2]
  rfl

end Registry

end CircuitDraft
