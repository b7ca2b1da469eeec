import CircuitDraft.Journal.Basic

/-!
Two reports on a journal: what is known of given variables, and the whole journal sorted by scope
and origin. Each is a list of messages; a message that ends a part ends in a line break.
-/

namespace CircuitDraft.Journal

def entryOf? (journal : Journal) (var : Variable) : Option Entry :=
  journal.entries.find? fun entry => entry.var = var

/-- What is known of one variable. The constant-one wire is never looked up. -/
def variableLine (journal : Journal) (var : Variable) : String :=
  if var = .one then
    "  " ++ var.text ++ " = constant-one wire"
  else
    match journal.entryOf? var with
    | some entry =>
        "  " ++ entry.var.text ++ " = " ++ entry.origin.text ++ ", label='" ++ entry.label ++
          "', scope=" ++ entry.scope.text
    | none => "  " ++ var.text ++ " not found in allocation log"

/-- The report on given variables, one line for each between a heading and a closing line. -/
def variableReport (journal : Journal) (vars : List Variable) : List String :=
  ("=== Allocation Info for Variables [" ++
      ", ".intercalate (vars.map Variable.longText) ++ "] ===") ::
    vars.map journal.variableLine ++ ["=== End Variable Info ===\n"]

/-- The entries of one origin within a scope. -/
structure Group where
  origin : Origin
  entries : List Entry
deriving DecidableEq

structure Section where
  scope : CircuitId
  entries : List Entry
deriving DecidableEq

def groupOrder : List Origin :=
  [.publicInput, .secretInput, .circuitInput, .internal]

/-- The groups of a section that have entries. -/
def Section.groups (s : Section) : List Group :=
  (groupOrder.map fun origin => ⟨origin, s.entries.filter fun entry => entry.origin = origin⟩).filter
    fun group => !group.entries.isEmpty

/-- The scopes of a journal in order of first use. -/
def scopes (journal : Journal) : List CircuitId :=
  (journal.toList.map Entry.scope).eraseDups

def sections (journal : Journal) : List Section :=
  journal.scopes.map fun scope => ⟨scope, journal.toList.filter fun entry => entry.scope = scope⟩

/-- The line of an entry within its group. An empty label is left out. -/
def entryLine (entry : Entry) : String :=
  if entry.label.isEmpty then
    "  " ++ entry.var.text
  else
    "  " ++ entry.var.text ++ " (" ++ entry.label ++ ")"

def Group.lines (group : Group) : List String :=
  (group.origin.text ++ " (" ++ Nat.repr group.entries.length ++ "):") ::
    group.entries.map entryLine

def Section.lines (s : Section) : List String :=
  if s.entries.isEmpty then
    ["\nScope " ++ s.scope.text ++ " has no allocations\n"]
  else
    ["=== Allocation Log for scope " ++ s.scope.text ++ " ===",
      "Total allocations in scope: " ++ Nat.repr s.entries.length ++ "\n"] ++
      s.groups.flatMap Group.lines ++ ["=== End Scope Log ===\n"]

def report (journal : Journal) : List String :=
  ["=== Circuit Allocation Log ===", "Total allocations: " ++ Nat.repr journal.size ++ "\n"] ++
    journal.sections.flatMap Section.lines ++ ["=== End Allocation Log ===\n"]

end CircuitDraft.Journal
