import CircuitDraft.CircuitId
import CircuitDraft.Json.Value
import CircuitDraft.LinearExpr.Basic
import CircuitDraft.PrimeField.Word

/-!
Variables, identities, terms and expressions as JSON. A coefficient is written as the word that
stores it. Any word is read, and one that is not reduced is written back as it was.
-/

namespace CircuitDraft

open Json

namespace Variable

def toJson (v : Variable) : String :=
  Nat.repr v.number.toNat

def ofJson? (json : Value) : Option Variable :=
  (json.below? UInt32.size).map fun n => ⟨.ofNat n⟩

end Variable

namespace CircuitId

def toJson (id : CircuitId) : String :=
  Nat.repr id.key.toNat

def ofJson? (json : Value) : Option CircuitId :=
  (json.below? UInt64.size).map fun n => ⟨.ofNat n⟩

end CircuitId

variable {K : PrimeField}

namespace PrimeField.Word

def toJson (w : K.Word) : String :=
  Nat.repr w.val.toNat

def ofJson? (K : PrimeField) (json : Value) : Option K.Word :=
  (json.below? UInt32.size).map fun n => ⟨.ofNat n⟩

end PrimeField.Word

namespace Term

def toJson (t : Term K.Word) : String :=
  "\x7b\"coef\":" ++ t.coef.toJson ++ ",\"var\":" ++ t.var.toJson ++ "\x7d"

def ofJson? (K : PrimeField) (json : Value) : Option (Term K.Word) := do
  match ← json.record? ["coef", "var"] with
  | [coef, var] =>
      let coef ← PrimeField.Word.ofJson? K coef
      let var ← Variable.ofJson? var
      return ⟨coef, var⟩
  | _ => none

end Term

namespace LinearExpr

def toJson (e : LinearExpr K.Word) : String :=
  "\x7b\"terms\":[" ++ ",".intercalate (e.terms.map Term.toJson) ++ "]\x7d"

def ofJson? (K : PrimeField) (json : Value) : Option (LinearExpr K.Word) := do
  match ← json.record? ["terms"] with
  | [terms] =>
      let terms ← terms.elements?
      let terms ← terms.mapM (Term.ofJson? K)
      return ⟨terms⟩
  | _ => none

end LinearExpr

end CircuitDraft
