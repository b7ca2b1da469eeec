import Std.Data.TreeMap

namespace CircuitDraft

/-- Values in the order they were added, with an index from each key to the position of its value. -/
structure Arena (κ α : Type) [Ord κ] where
  entries : Array α := #[]
  slots : Std.TreeMap κ Nat := ∅

namespace Arena

variable {κ α : Type} [Ord κ]

def size (arena : Arena κ α) : Nat :=
  arena.entries.size

def contains (arena : Arena κ α) (key : κ) : Bool :=
  arena.slots.contains key

/-- The value at the position that the index gives for a key. -/
def find? (arena : Arena κ α) (key : κ) : Option α :=
  arena.slots[key]?.bind fun slot => arena.entries[slot]?

/-- Add a value at the end and index it under `key`. -/
def push (arena : Arena κ α) (key : κ) (value : α) : Arena κ α where
  entries := arena.entries.push value
  slots := arena.slots.insert key arena.entries.size

/-- Change the value of a key in its place. A key without a value changes nothing. -/
def modify (arena : Arena κ α) (key : κ) (f : α → α) : Arena κ α :=
  match arena.slots[key]? with
  | some slot => { arena with entries := arena.entries.modify slot f }
  | none => arena

def first (arena : Arena κ α) (size_pos : 0 < arena.size) : α :=
  have : 0 < arena.entries.size := size_pos
  arena.entries[0]

def modifyFirst (arena : Arena κ α) (f : α → α) : Arena κ α :=
  { arena with entries := arena.entries.modify 0 f }

@[simp]
theorem size_push (arena : Arena κ α) (key : κ) (value : α) :
    (arena.push key value).size = arena.size + 1 := by
  simp [push, size]

@[simp]
theorem size_modify (arena : Arena κ α) (key : κ) (f : α → α) :
    (arena.modify key f).size = arena.size := by
  simp only [modify, size]
  split <;> simp

@[simp]
theorem size_modifyFirst (arena : Arena κ α) (f : α → α) :
    (arena.modifyFirst f).size = arena.size := by
  simp [modifyFirst, size]

theorem contains_push [Std.TransOrd κ] [Std.LawfulEqOrd κ] [DecidableEq κ]
    (arena : Arena κ α) (key key' : κ) (value : α) :
    (arena.push key value).contains key' = (decide (key = key') || arena.contains key') := by
  rw [Bool.eq_iff_iff]
  simp [push, contains, Std.TreeMap.contains_insert]

@[simp]
theorem contains_modify (arena : Arena κ α) (key key' : κ) (f : α → α) :
    (arena.modify key f).contains key' = arena.contains key' := by
  simp only [modify, contains]
  split <;> rfl

end Arena

end CircuitDraft
