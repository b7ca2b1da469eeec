import CircuitDraft.Json.Value
import CircuitDraft.Proofs.JsonScan

/-!
Compact texts of values. A text is one of a value if reading it, wherever a value may stand, comes
to handing over that value.
-/

namespace CircuitDraft.Json.Value

open Token

/-- No number goes on with the first character. -/
def Ends (rest : List Char) : Prop :=
  ∀ c ∈ rest.head?, isWordChar c = false

theorem ends_nil : Ends [] :=
  nofun

theorem ends_cons_of_punctuation {c : Char} {t : Token} (ht : ofPunctuation? c = some t)
    (rest : List Char) : Ends (c :: rest) := by
  rintro _ ⟨rfl⟩
  unfold ofPunctuation? at ht
  split at ht <;> first | rfl | cases ht

namespace Reading

/-- What has been read after the tokens of a text. -/
def run? (reading : Reading) (text : List Char) : Option Reading :=
  (scan text).bind fun tokens => tokens.foldlM step? reading

variable {reading : Reading} {stack : List Frame}

theorem run?_of_scan {text rest : List Char} {t : Token}
    (hscan : scan text = (scan rest).map (t :: ·)) (reading : Reading) :
    reading.run? text = (reading.step? t).bind fun next => next.run? rest := by
  unfold run?
  rw [hscan]
  cases scan rest with
  | none =>
      cases reading.step? t <;> rfl
  | some tokens => rfl

theorem run?_cons {c : Char} {t : Token} (ht : ofPunctuation? c = some t) (reading : Reading)
    (rest : List Char) :
    reading.run? (c :: rest) = (reading.step? t).bind fun next => next.run? rest :=
  run?_of_scan (scan_cons_of_punctuation ht rest) reading

/-- The next token may begin a value, which is for the innermost frame of the stack. -/
inductive Awaits : Reading → List Frame → Prop
  | value (stack : List Frame) : Awaits (value stack) stack
  | firstElement (stack : List Frame) : Awaits (firstElement stack) (.array [] :: stack)

theorem Awaits.step?_eq (hawaits : reading.Awaits stack) (t : Token) (ht : t ≠ .closeArray) :
    reading.step? t = start? stack t := by
  cases hawaits with
  | value => rfl
  | firstElement stack =>
      cases t with
      | closeArray => exact absurd rfl ht
      | _ => rfl

/-- The next token may be a name of the innermost object, whose members so far are given. -/
inductive AwaitsName : Reading → List (Text × Value) → List Frame → Prop
  | firstName (stack : List Frame) : AwaitsName (firstName stack) [] stack
  | name (before : List (Text × Value)) (stack : List Frame) :
      AwaitsName (name before stack) before stack

theorem AwaitsName.step?_text {before : List (Text × Value)}
    (hawaits : reading.AwaitsName before stack) (content : Text) :
    reading.step? (.text content) = some (colon before content stack) := by
  cases hawaits <;> rfl

end Reading

open Reading

/-- The text is read as the value, in front of anything but the rest of a number. -/
def WrittenAs (v : Value) (text : List Char) : Prop :=
  ∀ ⦃reading stack rest⦄, Awaits reading stack → Ends rest →
    reading.run? (text ++ rest) = (deliver v stack).run? rest

theorem parse?_of_writtenAs {v : Value} {text : String} (h : v.WrittenAs text.toList) :
    parse? text = some v := by
  have hrun : run? (.value []) text.toList = some (.finished v) := by
    have hall := h (.value []) ends_nil
    rw [List.append_nil] at hall
    rw [hall, run?, scan]
    rfl
  obtain ⟨tokens, hscan, hfold⟩ := Option.bind_eq_some_iff.mp hrun
  rw [parse?, hscan, Option.bind_some, ofTokens?, hfold]

theorem writtenAs_natural (n : Nat) : (natural n).WrittenAs (Nat.toDigits 10 n) := by
  intro reading stack rest hawaits hrest
  rw [run?_of_scan (scan_toDigits n hrest), hawaits.step?_eq (.natural n) nofun]
  rfl

/-- What is read within the brackets of an array or of an object: items with commas between them, of
which those that were read before are given in reverse order. -/
structure Series (α : Type) where
  Writes : α → List Char → Prop
  Begins : Reading → List α → Prop
  next : List α → Reading
  after : List α → Reading
  finish : List α → Reading
  close : Char
  closing : Token
  begins_next : ∀ before, Begins (next before) before
  ofPunctuation?_close : ofPunctuation? close = some closing
  step?_comma : ∀ before, (after before).step? .comma = some (next before)
  step?_closing : ∀ before, (after before).step? closing = some (finish before.reverse)
  run?_item : ∀ ⦃a text reading before rest⦄, Writes a text → Begins reading before → Ends rest →
    reading.run? (text ++ rest) = (after (a :: before)).run? rest

theorem Series.run?_items {α : Type} (series : Series α) {items : List α} {texts : List (List Char)}
    (hwritten : List.Forall₂ series.Writes items texts) {a : α} {text : List Char}
    (ha : series.Writes a text) {reading : Reading} {before : List α}
    (hbegins : series.Begins reading before) (rest : List Char) :
    reading.run? ([','].intercalate (text :: texts) ++ series.close :: rest) =
      (series.finish (before.reverse ++ a :: items)).run? rest := by
  induction hwritten generalizing a text reading before with
  | nil =>
      have hclose := series.ofPunctuation?_close
      rw [List.intercalate_singleton,
        series.run?_item ha hbegins (ends_cons_of_punctuation hclose rest), run?_cons hclose,
        series.step?_closing, Option.bind_some, List.reverse_cons]
  | cons hnext _ ih =>
      have hcomma : ofPunctuation? ',' = some .comma := rfl
      rw [List.intercalate_cons_cons, List.append_assoc, List.append_assoc, List.singleton_append,
        series.run?_item ha hbegins (ends_cons_of_punctuation hcomma _), run?_cons hcomma,
        series.step?_comma, Option.bind_some, ih hnext (series.begins_next _), List.reverse_cons,
        List.append_assoc, List.singleton_append]

def elements (stack : List Frame) : Series Value where
  Writes := WrittenAs
  Begins reading before := reading.Awaits (.array before :: stack)
  next before := .value (.array before :: stack)
  after before := .afterElement before stack
  finish values := deliver (.array values) stack
  close := ']'
  closing := .closeArray
  begins_next _ := .value _
  ofPunctuation?_close := rfl
  step?_comma _ := rfl
  step?_closing _ := rfl
  run?_item _ _ _ _ _ hv hawaits hrest := hv hawaits hrest

theorem writtenAs_array {values : List Value} {texts : List (List Char)}
    (hwritten : List.Forall₂ WrittenAs values texts) :
    (array values).WrittenAs ('[' :: ([','].intercalate texts ++ [']'])) := by
  intro reading stack rest hawaits hrest
  rw [List.cons_append, List.append_assoc, List.singleton_append, run?_cons (t := .openArray) rfl,
    hawaits.step?_eq .openArray nofun]
  cases hwritten with
  | nil => exact run?_cons (t := .closeArray) rfl (firstElement stack) rest
  | cons hv htail => exact (elements stack).run?_items htail hv (.firstElement stack) rest

structure MemberWrittenAs (member : List Char × Value) (text : List Char) : Prop where
  plain : ∀ c ∈ member.1, IsPlain c
  value : ∃ content, member.2.WrittenAs content ∧
    text = '"' :: (member.1 ++ '"' :: ':' :: content)

/-- The member of an object whose name stands for itself. -/
def named (member : List Char × Value) : Text × Value :=
  (member.1.map .char, member.2)

theorem MemberWrittenAs.run? {member : List Char × Value} {text : List Char}
    (h : MemberWrittenAs member text) {reading : Reading} {before : List (Text × Value)}
    {stack : List Frame} (hawaits : reading.AwaitsName before stack) {rest : List Char}
    (hrest : Ends rest) :
    reading.run? (text ++ rest) = (afterMember (named member :: before) stack).run? rest := by
  obtain ⟨name, v⟩ := member
  obtain ⟨content, hv, rfl⟩ := h.value
  rw [List.cons_append, List.append_assoc, List.cons_append, List.cons_append,
    run?_of_scan (scan_name h.plain _), hawaits.step?_text, Option.bind_some,
    run?_cons (t := .colon) rfl]
  exact hv (.value _) hrest

def members (stack : List Frame) : Series (List Char × Value) where
  Writes := MemberWrittenAs
  Begins reading before := reading.AwaitsName (before.map named) stack
  next before := .name (before.map named) stack
  after before := .afterMember (before.map named) stack
  finish members := deliver (.object (members.map named)) stack
  close := '}'
  closing := .closeObject
  begins_next _ := .name _ _
  ofPunctuation?_close := rfl
  step?_comma _ := rfl
  step?_closing before := by
    rw [List.map_reverse]
    rfl
  run?_item _ _ _ _ _ hmember hawaits hrest := hmember.run? hawaits hrest

theorem writtenAs_object {members : List (List Char × Value)} {texts : List (List Char)}
    (hwritten : List.Forall₂ MemberWrittenAs members texts) :
    (object (members.map named)).WrittenAs ('{' :: ([','].intercalate texts ++ ['}'])) := by
  intro reading stack rest hawaits hrest
  rw [List.cons_append, List.append_assoc, List.singleton_append, run?_cons (t := .openObject) rfl,
    hawaits.step?_eq .openObject nofun]
  cases hwritten with
  | nil => exact run?_cons (t := .closeObject) rfl (firstName stack) rest
  | cons hmember htail =>
      have hbegins : (Value.members stack).Begins (firstName stack) [] := .firstName stack
      exact (Value.members stack).run?_items htail hmember hbegins rest

end CircuitDraft.Json.Value
