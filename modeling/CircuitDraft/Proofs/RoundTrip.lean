import CircuitDraft.Codec
import CircuitDraft.Proofs.JsonText

/-!
What is written as JSON is read back as it was, also where the fields of a record are written in
another of the ways in which they are read.
-/

namespace CircuitDraft

open Json

namespace PrimeField

variable {K : PrimeField}

theorem Word.eq_of_toNat_eq {w other : K.Word} (h : w.val.toNat = other.val.toNat) : w = other :=
  congrArg Word.mk (UInt32.toNat_inj.mp h)

theorem Element.toWord_toElement (hfits : K.FitsWord) {w : K.Word}
    (hreduced : w.val.toNat < K.modulus) : w.toElement.toWord = w := by
  have hinverse : K.inverseRadix * radix % K.modulus = 1 := by
    rw [Nat.mul_comm, K.radix_mul_inverseRadix]
  apply Word.eq_of_toNat_eq
  rw [Element.val_toWord hfits, Word.toElement, Element.val_ofNat, mul_mod_mul_inverse hinverse,
    Nat.mod_eq_of_lt hreduced]

/-- The words that are reduced are those that elements are stored as. -/
theorem exists_toWord_iff (hfits : K.FitsWord) {w : K.Word} :
    (∃ a : K.Element, a.toWord = w) ↔ w.val.toNat < K.modulus := by
  constructor
  · rintro ⟨a, rfl⟩
    rw [Element.val_toWord hfits]
    exact Nat.mod_lt _ K.modulus_pos
  · intro hreduced
    exact ⟨w.toElement, Element.toWord_toElement hfits hreduced⟩

theorem Word.ofJson?_natural (w : K.Word) : ofJson? K (.natural w.val.toNat) = some w := by
  rw [ofJson?, Value.below?, if_pos w.val.toNat_lt_size, Option.map_some, UInt32.ofNat_toNat]

end PrimeField

theorem Variable.ofJson?_natural (v : Variable) : ofJson? (.natural v.number.toNat) = some v := by
  rw [ofJson?, Value.below?, if_pos v.number.toNat_lt_size, Option.map_some, UInt32.ofNat_toNat]

theorem CircuitId.ofJson?_natural (id : CircuitId) :
    ofJson? (.natural id.key.toNat) = some id := by
  rw [ofJson?, Value.below?, if_pos id.key.toNat_lt_size, Option.map_some, UInt64.ofNat_toNat]

variable {K : PrimeField}

namespace Term

/-- The ways to write a record of two fields. -/
inductive Layout
  | members
  | swapped
  | positional

def spelled (t : Term K.Word) : Layout → String
  | .members => t.toJson
  | .swapped => "\x7b\"var\":" ++ t.var.toJson ++ ",\"coef\":" ++ t.coef.toJson ++ "\x7d"
  | .positional => "[" ++ t.coef.toJson ++ "," ++ t.var.toJson ++ "]"

def coefMember (t : Term K.Word) : List Char × Value :=
  (['c', 'o', 'e', 'f'], .natural t.coef.val.toNat)

def varMember (t : Term K.Word) : List Char × Value :=
  (['v', 'a', 'r'], .natural t.var.number.toNat)

/-- The value that a text of the term is one of. -/
def value (t : Term K.Word) : Layout → Value
  | .members => .object ([t.coefMember, t.varMember].map Value.named)
  | .swapped => .object ([t.varMember, t.coefMember].map Value.named)
  | .positional => .array [.natural t.coef.val.toNat, .natural t.var.number.toNat]

theorem writtenAs_value (t : Term K.Word) (layout : Layout) :
    (t.value layout).WrittenAs (t.spelled layout).toList := by
  have hcoef := Value.writtenAs_natural t.coef.val.toNat
  have hvar := Value.writtenAs_natural t.var.number.toNat
  have hcoefMember : Value.MemberWrittenAs t.coefMember _ :=
    ⟨by simp [coefMember, Token.IsPlain], _, hcoef, rfl⟩
  have hvarMember : Value.MemberWrittenAs t.varMember _ :=
    ⟨by simp [varMember, Token.IsPlain], _, hvar, rfl⟩
  have hmembers := Value.writtenAs_object (.cons hcoefMember (.cons hvarMember .nil))
  have hswapped := Value.writtenAs_object (.cons hvarMember (.cons hcoefMember .nil))
  have hpositional := Value.writtenAs_array (.cons hcoef (.cons hvar .nil))
  simp only [List.intercalate_cons_cons, List.intercalate_singleton, List.cons_append,
    List.append_assoc] at hmembers hswapped hpositional
  cases layout <;>
    simp only [spelled, toJson, PrimeField.Word.toJson, Variable.toJson, String.toList_append,
      Nat.toList_repr, List.append_assoc]
  -- What is left to compare are the characters of the fixed parts, which compute.
  · exact hmembers
  · exact hswapped
  · exact hpositional

theorem ofJson?_value (t : Term K.Word) (layout : Layout) :
    ofJson? K (t.value layout) = some t := by
  have hrecord : (t.value layout).record? ["coef", "var"] =
      some [.natural t.coef.val.toNat, .natural t.var.number.toNat] := by
    cases layout <;> rfl
  simp only [ofJson?, hrecord, Option.bind_eq_bind, Option.bind_some,
    PrimeField.Word.ofJson?_natural, Variable.ofJson?_natural]
  rfl

end Term

namespace LinearExpr

/-- The ways to write a record of one field. -/
inductive Layout
  | members
  | positional

/-- Each term is written in a way of its own. -/
def spelled (e : LinearExpr K.Word) (layouts : Nat → Term.Layout) : Layout → String
  | .members => "\x7b\"terms\":[" ++
      ",".intercalate (e.terms.mapIdx fun i t => t.spelled (layouts i)) ++ "]\x7d"
  | .positional => "[[" ++
      ",".intercalate (e.terms.mapIdx fun i t => t.spelled (layouts i)) ++ "]]"

def termValues (e : LinearExpr K.Word) (layouts : Nat → Term.Layout) : Value :=
  .array (e.terms.mapIdx fun i t => t.value (layouts i))

def value (e : LinearExpr K.Word) (layouts : Nat → Term.Layout) : Layout → Value
  | .members => .object ([(['t', 'e', 'r', 'm', 's'], e.termValues layouts)].map Value.named)
  | .positional => .array [e.termValues layouts]

theorem forall₂_writtenAs (terms : List (Term K.Word)) (layouts : Nat → Term.Layout) :
    List.Forall₂ Value.WrittenAs (terms.mapIdx fun i t => t.value (layouts i))
      ((terms.mapIdx fun i t => t.spelled (layouts i)).map String.toList) := by
  induction terms generalizing layouts with
  | nil => exact .nil
  | cons t ts ih =>
      rw [List.mapIdx_cons, List.mapIdx_cons, List.map_cons]
      exact .cons (t.writtenAs_value (layouts 0)) (ih fun i => layouts (i + 1))

theorem mapM_ofJson? (terms : List (Term K.Word)) (layouts : Nat → Term.Layout) :
    (terms.mapIdx fun i t => t.value (layouts i)).mapM (Term.ofJson? K) = some terms := by
  induction terms generalizing layouts with
  | nil => rfl
  | cons t ts ih =>
      rw [List.mapIdx_cons, List.mapM_cons, t.ofJson?_value, ih fun i => layouts (i + 1)]
      rfl

theorem writtenAs_value (e : LinearExpr K.Word) (layouts : Nat → Term.Layout) (layout : Layout) :
    (e.value layouts layout).WrittenAs (e.spelled layouts layout).toList := by
  have hterms := Value.writtenAs_array (forall₂_writtenAs e.terms layouts)
  have hmember : Value.MemberWrittenAs (['t', 'e', 'r', 'm', 's'], e.termValues layouts) _ :=
    ⟨by simp [Token.IsPlain], _, hterms, rfl⟩
  have hmembers := Value.writtenAs_object (.cons hmember .nil)
  have hpositional := Value.writtenAs_array (.cons hterms .nil)
  simp only [List.intercalate_singleton, List.cons_append, List.append_assoc]
    at hmembers hpositional
  cases layout <;>
    simp only [spelled, String.toList_append, String.toList_intercalate,
      List.append_assoc]
  · exact hmembers
  · exact hpositional

theorem ofJson?_value (e : LinearExpr K.Word) (layouts : Nat → Term.Layout) (layout : Layout) :
    ofJson? K (e.value layouts layout) = some e := by
  have hrecord : (e.value layouts layout).record? ["terms"] = some [e.termValues layouts] := by
    cases layout <;> rfl
  simp only [ofJson?, hrecord, Option.bind_eq_bind, Option.bind_some, termValues, Value.elements?,
    mapM_ofJson?]
  rfl

theorem toJson_eq_spelled (e : LinearExpr K.Word) :
    e.toJson = e.spelled (fun _ => .members) .members := by
  have hterms : e.terms.mapIdx (fun _ t => t.spelled .members) = e.terms.map Term.toJson :=
    List.mapIdx_eq_iff.mpr fun _ => List.getElem?_map
  rw [toJson, spelled, hterms]

end LinearExpr

/-- Reading gives what was written, and the same again if what a text is read as is written. -/
structure Undoes {α : Type} (read : String → Option α) (write : α → String) : Prop where
  written : ∀ a, read (write a) = some a
  rewritten : ∀ text a, read text = some a → read (write a) = some a

namespace Undoes

variable {α β : Type} {read : String → Option α} {write : α → String}

theorem of_written (h : ∀ a, read (write a) = some a) : Undoes read write :=
  ⟨h, fun _ a _ => h a⟩

theorem of_value {ofValue? : Value → Option α} (value : α → Value)
    (hwritten : ∀ a, (value a).WrittenAs (write a).toList)
    (hread : ∀ a, ofValue? (value a) = some a) : Undoes (Value.read? ofValue?) write := by
  apply of_written
  intro a
  rw [Value.read?, Value.parse?_of_writtenAs (hwritten a), Option.bind_some, hread]

theorem map (h : Undoes read write) {f : β → α} {g : α → β} (hinverse : ∀ b, g (f b) = b) :
    Undoes (fun text => (read text).map g) (fun b => write (f b)) := by
  apply of_written
  intro b
  rw [h.written, Option.map_some, hinverse]

end Undoes

theorem Variable.undoes_toJson : Undoes (Value.read? ofJson?) toJson := by
  refine .of_value (fun v => .natural v.number.toNat) (fun v => ?_) ofJson?_natural
  rw [toJson, Nat.toList_repr]
  exact Value.writtenAs_natural _

theorem CircuitId.undoes_toJson : Undoes (Value.read? ofJson?) toJson := by
  refine .of_value (fun id => .natural id.key.toNat) (fun id => ?_) ofJson?_natural
  rw [toJson, Nat.toList_repr]
  exact Value.writtenAs_natural _

theorem Term.undoes_spelled (layout : Layout) :
    Undoes (Value.read? (ofJson? K)) (spelled · layout) :=
  .of_value (value · layout) (writtenAs_value · layout) (ofJson?_value · layout)

theorem LinearExpr.undoes_spelled (layouts : Nat → Term.Layout) (layout : Layout) :
    Undoes (Value.read? (ofJson? K)) (spelled · layouts layout) :=
  .of_value (value · layouts layout) (writtenAs_value · layouts layout)
    (ofJson?_value · layouts layout)

example : Value.read? (LinearExpr.ofJson? .babyBear)
    "[[[4294967295,5],\x7b\"var\":0,\"coef\":0\x7d]]" =
      some ⟨[⟨⟨4294967295⟩, ⟨5⟩⟩, ⟨⟨0⟩, ⟨0⟩⟩]⟩ := by
  cbv

theorem LinearExpr.undoes_toJson : Undoes (Value.read? (ofJson? K)) toJson := by
  rw [funext toJson_eq_spelled]
  exact undoes_spelled _ _

theorem Term.map_toElement_toWord (hfits : K.FitsWord) (t : Term K.Element) :
    (t.map PrimeField.Element.toWord).map PrimeField.Word.toElement = t := by
  simp [Term.map, PrimeField.Element.toElement_toWord hfits]

theorem LinearExpr.map_toElement_toWord (hfits : K.FitsWord) (e : LinearExpr K.Element) :
    (e.map PrimeField.Element.toWord).map PrimeField.Word.toElement = e := by
  simp [LinearExpr.map, Term.map_toElement_toWord hfits, Function.comp_def]

namespace Term

def ofText? (K : PrimeField) (text : String) : Option (Term K.Element) :=
  (Value.read? (ofJson? K) text).map (map PrimeField.Word.toElement)

def toText (t : Term K.Element) (layout : Layout) : String :=
  (t.map PrimeField.Element.toWord).spelled layout

end Term

namespace LinearExpr

def ofText? (K : PrimeField) (text : String) : Option (LinearExpr K.Element) :=
  (Value.read? (ofJson? K) text).map (map PrimeField.Word.toElement)

def toText (e : LinearExpr K.Element) (layouts : Nat → Term.Layout) (layout : Layout) : String :=
  (e.map PrimeField.Element.toWord).spelled layouts layout

end LinearExpr

/-- Whatever is written is read as it was, in whichever layout, and the words of a field are its
elements times the radix. -/
structure RoundTrips (K : PrimeField) : Prop where
  var : Undoes (Value.read? Variable.ofJson?) Variable.toJson
  identity : Undoes (Value.read? CircuitId.ofJson?) CircuitId.toJson
  term : Undoes (Value.read? (Term.ofJson? K)) Term.toJson
  expr : Undoes (Value.read? (LinearExpr.ofJson? K)) LinearExpr.toJson
  spelledTerm : ∀ layout, Undoes (Value.read? (Term.ofJson? K)) (Term.spelled · layout)
  spelledExpr : ∀ layouts layout,
    Undoes (Value.read? (LinearExpr.ofJson? K)) (LinearExpr.spelled · layouts layout)
  termOfElements : ∀ layout, Undoes (Term.ofText? K) (Term.toText · layout)
  exprOfElements : ∀ layouts layout,
    Undoes (LinearExpr.ofText? K) (LinearExpr.toText · layouts layout)
  val_toWord : ∀ a : K.Element, a.toWord.val.toNat = a.val * PrimeField.radix % K.modulus
  toElement_toWord : ∀ a : K.Element, a.toWord.toElement = a
  reduced_iff : ∀ w : K.Word, w.val.toNat < K.modulus ↔ ∃ a : K.Element, a.toWord = w

theorem PrimeField.roundTrips (hfits : K.FitsWord) : RoundTrips K where
  var := Variable.undoes_toJson
  identity := CircuitId.undoes_toJson
  term := Term.undoes_spelled .members
  expr := LinearExpr.undoes_toJson
  spelledTerm := Term.undoes_spelled
  spelledExpr := LinearExpr.undoes_spelled
  termOfElements layout := (Term.undoes_spelled layout).map (Term.map_toElement_toWord hfits)
  exprOfElements layouts layout :=
    (LinearExpr.undoes_spelled layouts layout).map (LinearExpr.map_toElement_toWord hfits)
  val_toWord := Element.val_toWord hfits
  toElement_toWord := Element.toElement_toWord hfits
  reduced_iff _ := (exists_toWord_iff hfits).symm

theorem PrimeField.roundTrips_both :
    babyBear.FitsWord ∧ RoundTrips babyBear ∧ koalaBear.FitsWord ∧ RoundTrips koalaBear :=
  have hbaby := fitsWord_iff.mpr (.inl rfl)
  have hkoala := fitsWord_iff.mpr (.inr rfl)
  ⟨hbaby, roundTrips hbaby, hkoala, roundTrips hkoala⟩

end CircuitDraft
