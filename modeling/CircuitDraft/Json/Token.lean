/-!
The tokens of JSON text. Numbers are told apart only as far as reading numbers of variables,
identities and coefficients needs: natural numbers have a value, all others do not.
-/

namespace CircuitDraft.Json

/-- A character of a string, written as itself or as the number of a UTF-16 unit. -/
inductive Piece
  | char (c : Char)
  | unit (u : Nat)
deriving DecidableEq

inductive Token
  | openObject
  | closeObject
  | openArray
  | closeArray
  | comma
  | colon
  | null
  | bool (b : Bool)
  | natural (n : Nat)
  | otherNumber
  | text (pieces : List Piece)
deriving DecidableEq

namespace Token

def isBlank (c : Char) : Bool :=
  c == ' ' || c == '\n' || c == '\t' || c == '\r'

def ofPunctuation? : Char → Option Token
  | '{' => some openObject
  | '}' => some closeObject
  | '[' => some openArray
  | ']' => some closeArray
  | ',' => some comma
  | ':' => some colon
  | _ => none

def afterDigits? (cs : List Char) : Option (List Char) :=
  if (cs.takeWhile Char.isDigit).isEmpty then none else some (cs.dropWhile Char.isDigit)

/-- What follows the integer part of a number. A leading zero stands alone. -/
def afterInteger? : List Char → Option (List Char)
  | '-' :: '0' :: rest => some rest
  | '-' :: rest => afterDigits? rest
  | '0' :: rest => some rest
  | rest => afterDigits? rest

/-- What follows the fraction of a number, which may be missing. -/
def afterFraction? : List Char → Option (List Char)
  | '.' :: rest => afterDigits? rest
  | rest => some rest

/-- What follows the exponent of a number, which may be missing. -/
def afterExponent? : List Char → Option (List Char)
  | e :: rest =>
      if e = 'e' ∨ e = 'E' then
        match rest with
        | '+' :: digits => afterDigits? digits
        | '-' :: digits => afterDigits? digits
        | digits => afterDigits? digits
      else
        some (e :: rest)
  | [] => some []

def isNumber (cs : List Char) : Bool :=
  ((afterInteger? cs).bind afterFraction?).bind afterExponent? == some []

/-- The characters of numbers and of the three words. -/
def isWordChar (c : Char) : Bool :=
  c.isAlphanum || c == '+' || c == '-' || c == '.'

/-- The token that a longest run of word characters stands for. -/
def ofWord? (cs : List Char) : Option Token :=
  if cs = ['n', 'u', 'l', 'l'] then
    some null
  else if cs = ['t', 'r', 'u', 'e'] then
    some (bool true)
  else if cs = ['f', 'a', 'l', 's', 'e'] then
    some (bool false)
  else if isNumber cs then
    some (if cs.all Char.isDigit then natural (Nat.ofDigitChars 10 cs 0) else otherNumber)
  else
    none

def hexDigit? (c : Char) : Option Nat :=
  if '0' ≤ c ∧ c ≤ '9' then
    some (c.toNat - '0'.toNat)
  else if 'a' ≤ c ∧ c ≤ 'f' then
    some (c.toNat - 'a'.toNat + 10)
  else if 'A' ≤ c ∧ c ≤ 'F' then
    some (c.toNat - 'A'.toNat + 10)
  else
    none

def hexUnit? (a b c d : Char) : Option Nat := do
  let a ← hexDigit? a
  let b ← hexDigit? b
  let c ← hexDigit? c
  let d ← hexDigit? d
  return ((a * 16 + b) * 16 + c) * 16 + d

/-- The character that a letter after a backslash stands for. -/
def ofEscape? : Char → Option Char
  | '"' => some '"'
  | '\\' => some '\\'
  | '/' => some '/'
  | 'b' => some '\x08'
  | 'f' => some '\x0c'
  | 'n' => some '\n'
  | 'r' => some '\r'
  | 't' => some '\t'
  | _ => none

/-- Read a string up to its closing quote. Control characters have to be escaped. -/
def scanText : List Char → Option (List Piece × List Char)
  | [] => none
  | '"' :: rest => some ([], rest)
  | '\\' :: 'u' :: a :: b :: c :: d :: rest => do
      let u ← hexUnit? a b c d
      let (pieces, after) ← scanText rest
      return (.unit u :: pieces, after)
  | '\\' :: e :: rest => do
      let c ← ofEscape? e
      let (pieces, after) ← scanText rest
      return (.char c :: pieces, after)
  | c :: rest =>
      if c.toNat < 0x20 ∨ c = '\\' then
        none
      else do
        let (pieces, after) ← scanText rest
        return (.char c :: pieces, after)

theorem length_lt_of_scanText {cs after : List Char} {pieces : List Piece}
    (h : scanText cs = some (pieces, after)) : after.length < cs.length := by
  fun_induction scanText cs generalizing pieces with
  | case1 => simp at h
  | case2 rest =>
    obtain ⟨rfl, rfl⟩ : [] = pieces ∧ rest = after := by simpa using h
    simp
  | case3 a b c d rest ih =>
    simp only [bind, Option.bind_eq_some_iff, pure, Option.some.injEq, Prod.mk.injEq] at h
    obtain ⟨_, _, ⟨ps, rest'⟩, hrest, _, rfl⟩ := h
    have : rest'.length < rest.length := ih hrest
    simp only [List.length_cons]
    omega
  | case4 e rest _ ih =>
    simp only [bind, Option.bind_eq_some_iff, pure, Option.some.injEq, Prod.mk.injEq] at h
    obtain ⟨_, _, ⟨ps, rest'⟩, hrest, _, rfl⟩ := h
    have : rest'.length < rest.length := ih hrest
    simp only [List.length_cons]
    omega
  | case5 => simp at h
  | case6 c rest _ _ _ _ ih =>
    simp only [bind, Option.bind_eq_some_iff, pure, Option.some.injEq, Prod.mk.injEq] at h
    obtain ⟨⟨ps, rest'⟩, hrest, _, rfl⟩ := h
    have : rest'.length < rest.length := ih hrest
    simp only [List.length_cons]
    omega

/-- The tokens of a text, or nothing if some part of it is no token. -/
def scan (cs : List Char) : Option (List Token) :=
  match cs with
  | [] => some []
  | c :: rest =>
      if isBlank c then
        scan rest
      else if c = '"' then
        match _h : scanText rest with
        | none => none
        | some (pieces, after) => (scan after).map (.text pieces :: ·)
      else if isWordChar c then
        match ofWord? (c :: rest.takeWhile isWordChar) with
        | none => none
        | some token => (scan (rest.dropWhile isWordChar)).map (token :: ·)
      else
        match ofPunctuation? c with
        | none => none
        | some token => (scan rest).map (token :: ·)
termination_by cs.length
decreasing_by
  · simp
  · exact Nat.lt_succ_of_lt (length_lt_of_scanText _h)
  · exact Nat.lt_succ_of_le (List.dropWhile_sublist isWordChar).length_le
  · simp

end Token

end CircuitDraft.Json
