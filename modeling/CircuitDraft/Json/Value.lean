import CircuitDraft.Json.Token

/-!
JSON values read from tokens, one token at a time: a stack holds the arrays and objects whose end
has not been read yet.
-/

namespace CircuitDraft.Json

/-- The content of a string as it was written. -/
abbrev Text : Type :=
  List Piece

namespace Text

/-- The characters of a string. Two units of a surrogate pair are one character, and a surrogate
without its partner is none. -/
def characters? : Text → Option (List Char)
  | [] => some []
  | .char c :: rest => (characters? rest).map (c :: ·)
  | .unit high :: .unit low :: rest =>
      if 0xd800 ≤ high ∧ high < 0xdc00 then
        if 0xdc00 ≤ low ∧ low < 0xe000 then
          (characters? rest).map
            (Char.ofNat (0x10000 + (high - 0xd800) * 0x400 + (low - 0xdc00)) :: ·)
        else
          none
      else if 0xdc00 ≤ high ∧ high < 0xe000 then
        none
      else
        (characters? (.unit low :: rest)).map (Char.ofNat high :: ·)
  | .unit u :: rest =>
      if 0xd800 ≤ u ∧ u < 0xe000 then none
      else (characters? rest).map (Char.ofNat u :: ·)

end Text

/-- A JSON value. Objects keep repeated names and the order of their members. -/
inductive Value
  | null
  | bool (b : Bool)
  | natural (n : Nat)
  | otherNumber
  | text (content : Text)
  | array (elements : List Value)
  | object (members : List (Text × Value))

namespace Value

/-- An array or object whose end has not been read yet, with what came before in reverse order. -/
inductive Frame
  | array (before : List Value)
  | object (before : List (Text × Value)) (name : Text)

/-- What has been read of a value, by what has to come next. -/
inductive Reading
  | value (stack : List Frame)
  | firstElement (stack : List Frame)
  | afterElement (before : List Value) (stack : List Frame)
  | firstName (stack : List Frame)
  | name (before : List (Text × Value)) (stack : List Frame)
  | colon (before : List (Text × Value)) (name : Text) (stack : List Frame)
  | afterMember (before : List (Text × Value)) (stack : List Frame)
  | finished (v : Value)

namespace Reading

/-- Hand a complete value to the innermost open array or object. -/
def deliver (v : Value) : List Frame → Reading
  | [] => finished v
  | .array before :: stack => afterElement (v :: before) stack
  | .object before key :: stack => afterMember ((key, v) :: before) stack

def start? (stack : List Frame) : Token → Option Reading
  | .null => some (deliver .null stack)
  | .bool b => some (deliver (.bool b) stack)
  | .natural n => some (deliver (.natural n) stack)
  | .otherNumber => some (deliver .otherNumber stack)
  | .text content => some (deliver (.text content) stack)
  | .openArray => some (firstElement stack)
  | .openObject => some (firstName stack)
  | _ => none

def step? : Reading → Token → Option Reading
  | value stack, t => start? stack t
  | firstElement stack, .closeArray => some (deliver (.array []) stack)
  | firstElement stack, t => start? (.array [] :: stack) t
  | afterElement before stack, .comma => some (value (.array before :: stack))
  | afterElement before stack, .closeArray => some (deliver (.array before.reverse) stack)
  | firstName stack, .closeObject => some (deliver (.object []) stack)
  | firstName stack, .text content => some (colon [] content stack)
  | name before stack, .text content => some (colon before content stack)
  | colon before key stack, .colon => some (value (.object before key :: stack))
  | afterMember before stack, .comma => some (name before stack)
  | afterMember before stack, .closeObject => some (deliver (.object before.reverse) stack)
  | _, _ => none

end Reading

def ofTokens? (tokens : List Token) : Option Value :=
  match tokens.foldlM Reading.step? (.value []) with
  | some (.finished v) => some v
  | _ => none

def parse? (text : String) : Option Value :=
  (Token.scan text.toList).bind ofTokens?

/-- What a text stands for by a reading of values. -/
def read? {α : Type} (ofValue? : Value → Option α) (text : String) : Option α :=
  (parse? text).bind ofValue?

/-- The fields of a record, in the order of their names: the elements of an array of exactly that
many, or the members of an object that has each name exactly once, whatever else it has. -/
def record? (names : List String) : Value → Option (List Value)
  | array elements => if elements.length = names.length then some elements else none
  | object members => do
      let members ← members.mapM fun (key, v) => key.characters?.map fun cs => (cs, v)
      names.mapM fun name =>
        match members.filter fun member => member.1 = name.toList with
        | [(_, v)] => some v
        | _ => none
  | _ => none

def elements? : Value → Option (List Value)
  | array elements => some elements
  | _ => none

def below? (bound : Nat) : Value → Option Nat
  | natural n => if n < bound then some n else none
  | _ => none

end Value

end CircuitDraft.Json
