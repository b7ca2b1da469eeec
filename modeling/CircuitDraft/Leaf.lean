namespace CircuitDraft

/-- Whether the value of an input is known to the verifier. -/
inductive Visibility
  | secretValue
  | publicValue
deriving DecidableEq

def Visibility.text : Visibility → String
  | secretValue => "secret"
  | publicValue => "public"

/-- What an input is declared for: a bare name, or a member of a structure of inputs. -/
inductive Leaf
  | plain (name : String)
  | member (path : String) (visibility : Visibility)
deriving DecidableEq

def Leaf.name : Leaf → String
  | plain name => name
  | member path _ => path

end CircuitDraft
