import CircuitDraft.Config
import CircuitDraft.Journal.Report
import CircuitDraft.Leaf
import CircuitDraft.LinearExpr.Basic
import CircuitDraft.PrimeField
import CircuitDraft.PublicInputs
import CircuitDraft.Registry

namespace CircuitDraft

/-- A circuit over the field `K` while its variables and sub-circuits are being declared. One counter
numbers the variables of all scopes. -/
structure Draft (K : PrimeField) where
  config : Config
  counter : Counter := {}
  registry : Registry := .new
  publicInputs : PublicInputs := {}
  journal : Journal := {}

/-- What asking for a sub-circuit by its key found. -/
inductive Lookup
  | present (id : CircuitId)
  | added (id : CircuitId)
deriving DecidableEq

namespace Lookup

def id : Lookup → CircuitId
  | present id => id
  | added id => id

def wasPresent : Lookup → Bool
  | present _ => true
  | added _ => false

end Lookup

namespace Draft

variable {K : PrimeField}

def empty (config : Config) : Draft K :=
  { config }

/-- Begin a circuit over `K` for the modulus `requested`, which has to be that of `K`. -/
def create (requested : Nat) (config : Config) : Except BuildError (Draft K) × List Event :=
  let creating := Event.creating requested config.expectedVars
  if K.accepts requested then
    (.ok (empty config), [creating, .rootRegistered K.modulus])
  else
    (.error (.unsupportedField requested K.modulus),
      [creating, .unsupportedField requested K.modulus])

/-- The modulus of the field that the circuit is drafted over. -/
def modulus (_ : Draft K) : Nat :=
  K.modulus

def varCount (draft : Draft K) : Nat :=
  draft.counter.count

def root (draft : Draft K) : Scope :=
  draft.registry.root

def find? (draft : Draft K) (id : CircuitId) : Option Scope :=
  draft.registry.find? id

def one (draft : Draft K) : Variable :=
  draft.root.one

/-- A constant as a multiple of the constant-one wire. -/
def constant (draft : Draft K) (c : K.Element) : LinearExpr K.Element :=
  .ofTerm c draft.one

/-- Take over the counter and the registry after a declaration, and enter it in the journal. -/
def declared (draft : Draft K) (id : CircuitId) (origin : Origin) (label : String)
    (minted : Except BuildError (Variable × Counter × Registry)) : Outcome (Draft K) Variable :=
  let taken := (Outcome.ofStep (draft.counter, draft.registry) minted).within
    fun (counter, registry) => { draft with counter, registry }
  taken.andThen fun var after =>
    let entry : Journal.Entry := ⟨var, origin, label, id⟩
    (Outcome.success var { after with journal := after.journal.push entry }).raise
      [.declared entry]

def declareRoot (draft : Draft K) (origin : Origin) (label : String) :
    Outcome (Draft K) Variable :=
  draft.declared .root origin label (draft.registry.declareRoot origin.role draft.counter)

def declareIn (draft : Draft K) (id : CircuitId) (origin : Origin) (label : String) :
    Outcome (Draft K) Variable :=
  draft.declared id origin label (draft.registry.declare id origin.role draft.counter)

def secretInput (draft : Draft K) (leaf : Leaf) : Outcome (Draft K) (LinearExpr K.Element) :=
  (draft.declareRoot .secretInput leaf.name).map .ofVariable

def publicInput (draft : Draft K) (leaf : Leaf) : Outcome (Draft K) (LinearExpr K.Element) :=
  (draft.declareRoot .publicInput leaf.name).andThen fun var after =>
    (Outcome.success (.ofVariable var)
      { after with publicInputs := after.publicInputs.push var }).raise
        [.taggedPublic var after.publicInputs.count]

def internal (draft : Draft K) (label : String) : Outcome (Draft K) (LinearExpr K.Element) :=
  (draft.declareRoot .internal label).map .ofVariable

def circuitInput (draft : Draft K) (id : CircuitId) (leaf : Leaf) :
    Outcome (Draft K) (LinearExpr K.Element) :=
  (draft.declareIn id .circuitInput leaf.name).map .ofVariable

def circuitInternal (draft : Draft K) (id : CircuitId) (label : String) :
    Outcome (Draft K) (LinearExpr K.Element) :=
  (draft.declareIn id .internal label).map .ofVariable

/-- Register an empty sub-circuit under a key that is not taken. -/
def register (draft : Draft K) (id : CircuitId) : Outcome (Draft K) CircuitId :=
  ((draft.registry.register id (.empty id)).within fun registry => { draft with registry }).map
    fun _ => id

/-- Register an empty sub-circuit under the next reserved identity. -/
def registerNext (draft : Draft K) : Outcome (Draft K) CircuitId :=
  draft.registry.registerNext.within fun registry => { draft with registry }

/-- The sub-circuit registered under a key, or an empty one that is registered under it now. -/
def getOrRegister (draft : Draft K) (id : CircuitId) : Outcome (Draft K) Lookup :=
  if id.isReserved then
    .failure (.identityReserved id) draft
  else if draft.registry.contains id then
    (Outcome.success (.present id) draft).raise [.reused id]
  else
    (draft.register id).map .added

def addOutput (draft : Draft K) (id : CircuitId) (var : Variable) : Outcome (Draft K) Unit :=
  (Outcome.ofUpdate draft.registry (draft.registry.addOutput id var)).within
    fun registry => { draft with registry }

def variableReport (draft : Draft K) (vars : List Variable) : List String :=
  draft.journal.variableReport vars

def report (draft : Draft K) : List String :=
  draft.journal.report

end Draft

end CircuitDraft
