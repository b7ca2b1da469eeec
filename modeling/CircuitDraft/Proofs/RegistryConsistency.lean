import CircuitDraft.Proofs.ArenaIndex
import CircuitDraft.Registry

namespace CircuitDraft

/-- The number that the next reserved identity will have, or that it would have if the numbers
reached that far. -/
def CircuitId.frontier : Option CircuitId → Nat
  | some id => id.key.toNat
  | none => UInt64.size

theorem CircuitId.frontier_succ? (id : CircuitId) : frontier id.succ? = id.key.toNat + 1 := by
  cases hnext : id.succ? with
  | none => exact (succ?_eq_none_iff.mp hnext).symm
  | some later => exact succ?_eq_some_iff.mp hnext

/-- Enter an output, whether the scope has the variable or not. -/
def Scope.mark (scope : Scope) (var : Variable) : Scope :=
  { scope with outputs := scope.outputs.push var }

namespace Registry

def frontier (registry : Registry) : Nat :=
  CircuitId.frontier registry.nextReserved

theorem frontier_of_next {registry : Registry} {id : CircuitId}
    (hnext : registry.nextReserved = some id) : registry.frontier = id.key.toNat := by
  rw [frontier, hnext]
  rfl

theorem frontier_eq_size_iff {registry : Registry} :
    registry.frontier = UInt64.size ↔ registry.nextReserved = none := by
  cases hnext : registry.nextReserved with
  | none =>
      rw [frontier, hnext]
      exact iff_of_true rfl rfl
  | some id =>
      rw [frontier_of_next hnext]
      exact iff_of_false (Nat.ne_of_lt id.key.toNat_lt_size) nofun

def update (registry : Registry) (id : CircuitId) (f : Scope → Scope) : Registry :=
  { registry with
    scopes := registry.scopes.modify id f
    size_pos := by simpa using registry.size_pos }

/-- Add a scope under its own identity, and go on with `next` as the next reserved identity. -/
def append (registry : Registry) (scope : Scope) (next : Option CircuitId) : Registry where
  scopes := registry.scopes.push scope.id scope
  nextReserved := next
  size_pos := by simp

/-- Add an empty scope, and go on with `next` as the next reserved identity. -/
def enroll (registry : Registry) (id : CircuitId) (next : Option CircuitId) : Registry where
  scopes := registry.scopes.push id (.empty id)
  nextReserved := next
  size_pos := by simp

/-- The index and the list of scopes agree, the root scope comes first, and the reserved identities
were handed out in order, without gaps, up to the next one. -/
structure Consistent (registry : Registry) : Prop where
  indexed : registry.scopes.Indexed Scope.id
  head : registry.ids.head? = some .root
  base_le : CircuitId.firstReserved.key.toNat ≤ registry.frontier
  reserved : (registry.ids.filter CircuitId.isReserved).map (·.key.toNat) =
    List.range' CircuitId.firstReserved.key.toNat
      (registry.frontier - CircuitId.firstReserved.key.toNat)

theorem consistent_new : new.Consistent :=
  ⟨(Arena.indexed_empty Scope.id).push (.empty .root) rfl, rfl, Nat.le_refl _, rfl⟩

@[simp]
theorem toList_append (registry : Registry) (scope : Scope) (next : Option CircuitId) :
    (registry.append scope next).toList = registry.toList ++ [scope] := by
  simp [toList, append, Arena.push]

@[simp]
theorem ids_append (registry : Registry) (scope : Scope) (next : Option CircuitId) :
    (registry.append scope next).ids = registry.ids ++ [scope.id] := by
  simp [ids]

@[simp]
theorem size_append (registry : Registry) (scope : Scope) (next : Option CircuitId) :
    (registry.append scope next).size = registry.size + 1 := by
  simp [size, append]

@[simp]
theorem toList_enroll (registry : Registry) (id : CircuitId) (next : Option CircuitId) :
    (registry.enroll id next).toList = registry.toList ++ [.empty id] :=
  registry.toList_append (.empty id) next

@[simp]
theorem ids_enroll (registry : Registry) (id : CircuitId) (next : Option CircuitId) :
    (registry.enroll id next).ids = registry.ids ++ [id] :=
  registry.ids_append (.empty id) next

@[simp]
theorem length_ids (registry : Registry) : registry.ids.length = registry.size := by
  simp [ids, toList, size, Arena.size]

namespace Consistent

variable {registry : Registry}

theorem nodup_ids (h : registry.Consistent) : registry.ids.Nodup :=
  h.indexed.nodup_keys

theorem find?_eq_some_iff (h : registry.Consistent) {id : CircuitId} {scope : Scope} :
    registry.find? id = some scope ↔ scope ∈ registry.toList ∧ scope.id = id :=
  h.indexed.find?_eq_some_iff

theorem find?_eq_find? (h : registry.Consistent) (id : CircuitId) :
    registry.find? id = registry.toList.find? fun scope => scope.id = id :=
  h.indexed.find?_eq_find? id

theorem find?_eq_none_iff (h : registry.Consistent) {id : CircuitId} :
    registry.find? id = none ↔ registry.contains id = false :=
  h.indexed.find?_eq_none_iff

theorem contains_iff (h : registry.Consistent) {id : CircuitId} :
    registry.contains id = true ↔ id ∈ registry.ids :=
  h.indexed.contains_iff

theorem contains_eq_false_iff (h : registry.Consistent) {id : CircuitId} :
    registry.contains id = false ↔ id ∉ registry.ids := by
  rw [← Bool.not_eq_true, h.contains_iff]

theorem mem_of_find? (h : registry.Consistent) {id : CircuitId} {scope : Scope}
    (hscope : registry.find? id = some scope) : scope ∈ registry.toList :=
  (h.find?_eq_some_iff.mp hscope).1

theorem id_of_find? (h : registry.Consistent) {id : CircuitId} {scope : Scope}
    (hscope : registry.find? id = some scope) : scope.id = id :=
  (h.find?_eq_some_iff.mp hscope).2

theorem contains_eq_isSome (h : registry.Consistent) (id : CircuitId) :
    registry.contains id = (registry.find? id).isSome := by
  cases hscope : registry.find? id with
  | none => exact h.find?_eq_none_iff.mp hscope
  | some scope =>
      obtain ⟨hmem, rfl⟩ := h.find?_eq_some_iff.mp hscope
      exact h.contains_iff.mpr (List.mem_map.mpr ⟨scope, hmem, rfl⟩)

theorem root_mem_ids (h : registry.Consistent) : .root ∈ registry.ids :=
  List.mem_of_head? h.head

theorem id_root (h : registry.Consistent) : registry.root.id = .root := by
  have hfirst : registry.scopes.entries[0]? = some registry.root :=
    getElem?_pos registry.scopes.entries 0 registry.size_pos
  have hhead := h.head
  rw [ids, toList, List.head?_map, List.head?_eq_getElem?, Array.getElem?_toList, hfirst] at hhead
  exact Option.some.inj hhead

theorem find?_root (h : registry.Consistent) : registry.find? .root = some registry.root := by
  rw [← h.id_root]
  exact h.indexed.find?_first registry.size_pos

theorem mem_reserved_iff (h : registry.Consistent) {id : CircuitId} :
    id ∈ registry.ids ∧ id.isReserved = true ↔
      CircuitId.firstReserved.key.toNat ≤ id.key.toNat ∧ id.key.toNat < registry.frontier := by
  have hbase := h.base_le
  have hmem : id ∈ registry.ids.filter CircuitId.isReserved ↔
      id.key.toNat ∈ (registry.ids.filter CircuitId.isReserved).map (·.key.toNat) := by
    rw [List.mem_map]
    constructor
    · intro hid
      exact ⟨id, hid, rfl⟩
    · rintro ⟨other, hother, hkey⟩
      exact CircuitId.eq_of_toNat_eq hkey ▸ hother
  rw [← List.mem_filter, hmem, h.reserved, List.mem_range'_1]
  omega

theorem next_free (h : registry.Consistent) {id : CircuitId}
    (hnext : registry.nextReserved = some id) :
    id.isReserved = true ∧ registry.contains id = false := by
  have hfrontier := frontier_of_next hnext
  have hreserved : id.isReserved = true := by
    rw [CircuitId.isReserved_iff, ← hfrontier]
    exact h.base_le
  refine ⟨hreserved, h.contains_eq_false_iff.mpr ?_⟩
  intro hmem
  have := (h.mem_reserved_iff.mp ⟨hmem, hreserved⟩).2
  omega

theorem toList_update (h : registry.Consistent) (id : CircuitId) (f : Scope → Scope) :
    (registry.update id f).toList =
      registry.toList.map fun scope => if scope.id = id then f scope else scope :=
  h.indexed.toList_modify id f

theorem id_update {id : CircuitId} {f : Scope → Scope}
    (hf : ∀ scope, scope.id = id → (f scope).id = id) (scope : Scope) :
    (if scope.id = id then f scope else scope).id = scope.id := by
  split
  · next hid => rw [hf scope hid, hid]
  · rfl

theorem ids_update (h : registry.Consistent) (id : CircuitId) {f : Scope → Scope}
    (hf : ∀ scope, scope.id = id → (f scope).id = id) :
    (registry.update id f).ids = registry.ids := by
  rw [ids, h.toList_update, List.map_map]
  exact List.map_congr_left fun scope _ => id_update hf scope

theorem update (h : registry.Consistent) (id : CircuitId) {f : Scope → Scope}
    (hf : ∀ scope, scope.id = id → (f scope).id = id) : (registry.update id f).Consistent where
  indexed := h.indexed.modify id f hf
  head := by
    rw [h.ids_update id hf]
    exact h.head
  base_le := h.base_le
  reserved := by
    rw [h.ids_update id hf]
    exact h.reserved

theorem find?_update (h : registry.Consistent) (id : CircuitId) {f : Scope → Scope}
    (hf : ∀ scope, scope.id = id → (f scope).id = id) (other : CircuitId) :
    (registry.update id f).find? other =
      (registry.find? other).map fun scope => if scope.id = id then f scope else scope := by
  rw [(h.update id hf).find?_eq_find?, h.toList_update, List.find?_map, h.find?_eq_find?]
  congr 2
  funext scope
  exact congrArg (fun found => decide (found = other)) (id_update hf scope)

theorem find?_update_self (h : registry.Consistent) (id : CircuitId) {f : Scope → Scope}
    (hf : ∀ scope, scope.id = id → (f scope).id = id) :
    (registry.update id f).find? id = (registry.find? id).map f := by
  rw [h.find?_update id hf]
  apply Option.map_congr
  intro scope hscope
  exact if_pos (h.id_of_find? hscope)

theorem find?_update_of_ne (h : registry.Consistent) {id other : CircuitId} {f : Scope → Scope}
    (hf : ∀ scope, scope.id = id → (f scope).id = id) (hne : other ≠ id) :
    (registry.update id f).find? other = registry.find? other := by
  rw [h.find?_update id hf]
  cases hscope : registry.find? other with
  | none => rfl
  | some scope =>
      have hid : scope.id ≠ id := by
        rw [h.id_of_find? hscope]
        exact hne
      exact congrArg some (if_neg hid)

theorem indexed_append (h : registry.Consistent) (scope : Scope) (next : Option CircuitId)
    (hfree : registry.contains scope.id = false) :
    (registry.append scope next).scopes.Indexed Scope.id :=
  h.indexed.push scope hfree

theorem find?_append (h : registry.Consistent) (scope : Scope) (next : Option CircuitId)
    (hfree : registry.contains scope.id = false) (other : CircuitId) :
    (registry.append scope next).find? other =
      (registry.find? other).or (if scope.id = other then some scope else none) := by
  have hsearch : (registry.append scope next).find? other =
      (registry.append scope next).toList.find? fun found => found.id = other :=
    (h.indexed_append scope next hfree).find?_eq_find? other
  rw [hsearch, toList_append, List.find?_append, ← h.find?_eq_find?, List.find?_singleton]
  simp only [decide_eq_true_eq]

theorem head_append (h : registry.Consistent) (scope : Scope) (next : Option CircuitId) :
    (registry.append scope next).ids.head? = some .root := by
  rw [ids_append, List.head?_append, h.head]
  rfl

/-- A key that a caller chose leaves the reserved identities alone. -/
theorem append (h : registry.Consistent) (scope : Scope) (hkey : scope.id.isReserved = false)
    (hfree : registry.contains scope.id = false) :
    (registry.append scope registry.nextReserved).Consistent where
  indexed := h.indexed_append scope _ hfree
  head := h.head_append scope _
  base_le := h.base_le
  reserved := by
    rw [ids_append, List.filter_append, List.filter_singleton, hkey]
    exact (congrArg _ (List.append_nil _)).trans h.reserved

theorem enroll (h : registry.Consistent) {id : CircuitId} (hkey : id.isReserved = false)
    (hfree : registry.contains id = false) :
    (registry.enroll id registry.nextReserved).Consistent :=
  h.append (.empty id) hkey hfree

theorem enroll_next (h : registry.Consistent) {id : CircuitId}
    (hnext : registry.nextReserved = some id) : (registry.enroll id id.succ?).Consistent := by
  obtain ⟨hreserved, hfree⟩ := h.next_free hnext
  have hbefore := frontier_of_next hnext
  have hafter : (registry.enroll id id.succ?).frontier = id.key.toNat + 1 :=
    CircuitId.frontier_succ? id
  have hbase := h.base_le
  rw [hbefore] at hbase
  have hcount : id.key.toNat + 1 - CircuitId.firstReserved.key.toNat =
      id.key.toNat - CircuitId.firstReserved.key.toNat + 1 := by omega
  have hlast : CircuitId.firstReserved.key.toNat +
      (id.key.toNat - CircuitId.firstReserved.key.toNat) = id.key.toNat := by omega
  refine ⟨h.indexed_append (.empty id) _ hfree, h.head_append (.empty id) _, by omega, ?_⟩
  -- The range of the reserved numbers grows by the number at its end.
  rw [ids_enroll, List.filter_append, List.filter_singleton, hreserved, List.map_append,
    h.reserved, hafter, hbefore, hcount, List.range'_1_concat, hlast]
  rfl

end Consistent

end Registry

end CircuitDraft
