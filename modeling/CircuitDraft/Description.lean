import CircuitDraft.Draft.Basic

namespace CircuitDraft

/-- A finished circuit over the field `K`. -/
structure Description (K : PrimeField) where
  config : Config
  varCount : Nat
  publicInputs : Array Variable
  registry : Registry

namespace Description

variable {K : PrimeField}

def modulus (_ : Description K) : Nat :=
  K.modulus

def root (description : Description K) : Scope :=
  description.registry.root

def find? (description : Description K) (id : CircuitId) : Option Scope :=
  description.registry.find? id

/-- The number of inputs of the circuit, secret and public. -/
def inputCount (description : Description K) : Nat :=
  description.root.inputCount

def hasPublicInput (description : Description K) (var : Variable) : Bool :=
  description.publicInputs.contains var

end Description

/-- Close a draft. The description holds all that was declared, without the journal. -/
def Draft.finish {K : PrimeField} (draft : Draft K) : Description K × List Event :=
  ({ config := draft.config
     varCount := draft.varCount
     publicInputs := draft.publicInputs.vars
     registry := draft.registry },
    [.finishing,
      .completed draft.varCount draft.publicInputs.count draft.registry.size])

end CircuitDraft
