import Offside.Json.Value

/-!
# Reading JSON

`Json.read?` reads the text of one JSON value, with spacing anywhere between its parts. It accepts the
standard's grammar and nothing else: no leading zeros, no control characters inside strings, no text
behind the value. A string's two halves of a surrogate pair become one character, and half a pair
alone is refused.

The readers take a bound on the number of steps. Each step but the first reads a character or hands
on to a reader that does, so twice the length of the text is always enough.
-/

namespace Offside.Json

def isSpace (c : Char) : Bool := c == ' ' || c == '\t' || c == '\n' || c == '\r'

def skipSpace (s : List Char) : List Char := s.dropWhile isSpace

/-! ## Strings -/

/-- A part of a string as it is written: a character, or a sixteen-bit code. -/
inductive StringUnit where
  | char (c : Char)
  | code (n : Nat)
  deriving DecidableEq, Repr

def hexValue? (c : Char) : Option Nat :=
  if '0' ≤ c ∧ c ≤ '9' then some (c.toNat - '0'.toNat)
  else if 'a' ≤ c ∧ c ≤ 'f' then some (c.toNat - 'a'.toNat + 10)
  else if 'A' ≤ c ∧ c ≤ 'F' then some (c.toNat - 'A'.toNat + 10)
  else none

def hexCode? (a b c d : Char) : Option Nat := do
  return (((← hexValue? a) * 16 + (← hexValue? b)) * 16 + (← hexValue? c)) * 16 + (← hexValue? d)

/-- The character that stands behind a backslash for another one. -/
def unescape? (c : Char) : Option Char :=
  if c = '"' ∨ c = '\\' ∨ c = '/' then some c
  else if c = 'b' then some '\x08'
  else if c = 'f' then some '\x0c'
  else if c = 'n' then some '\n'
  else if c = 'r' then some '\r'
  else if c = 't' then some '\t'
  else none

/-- The parts of a string behind its opening quote, and the text behind its closing quote. -/
def readUnits : List Char → Option (List StringUnit × List Char)
  | [] => none
  | '\\' :: 'u' :: a :: b :: c :: d :: rest => do
    let code ← hexCode? a b c d
    let (units, after) ← readUnits rest
    return (.code code :: units, after)
  | '\\' :: c :: rest => do
    let c ← unescape? c
    let (units, after) ← readUnits rest
    return (.char c :: units, after)
  | c :: rest =>
    if c = '"' then some ([], rest)
    else if c = '\\' ∨ c.toNat < 0x20 then none
    else do
      let (units, after) ← readUnits rest
      return (.char c :: units, after)

/-- Whether a code is the first half of a surrogate pair. -/
def isHighHalf (n : Nat) : Bool := 0xD800 ≤ n && n ≤ 0xDBFF

/-- Whether a code is the second half of a surrogate pair. -/
def isLowHalf (n : Nat) : Bool := 0xDC00 ≤ n && n ≤ 0xDFFF

/-- The characters that the parts of a string stand for. -/
def joinUnits : List StringUnit → Option (List Char)
  | [] => some []
  | .char c :: rest => (joinUnits rest).map (c :: ·)
  | .code high :: .code low :: rest =>
    if isHighHalf high then
      if isLowHalf low then
        (joinUnits rest).map (Char.ofNat (0x10000 + (high - 0xD800) * 0x400 + (low - 0xDC00)) :: ·)
      else none
    else if isLowHalf high then none
    else (joinUnits (.code low :: rest)).map (Char.ofNat high :: ·)
  | .code n :: rest =>
    if isHighHalf n || isLowHalf n then none else (joinUnits rest).map (Char.ofNat n :: ·)

/-- A string behind its opening quote, and the text behind its closing quote. -/
def readString (s : List Char) : Option (String × List Char) := do
  let (units, after) ← readUnits s
  return (String.ofList (← joinUnits units), after)

/-! ## Numbers -/

/-- Some digits, at least one, behind a start that is already read. -/
def readTailDigits (start s : List Char) : Option (List Char × List Char) :=
  let digits := s.takeWhile Char.isDigit
  if digits.isEmpty then none else some (start ++ digits, s.dropWhile Char.isDigit)

/-- The fraction of a number, if the text begins with one. -/
def readFraction : List Char → Option (List Char × List Char)
  | '.' :: rest => readTailDigits ['.'] rest
  | s => some ([], s)

/-- The exponent of a number, if the text begins with one. -/
def readExponent : List Char → Option (List Char × List Char)
  | c :: rest =>
    if c = 'e' ∨ c = 'E' then
      match rest with
      | '+' :: rest => readTailDigits [c, '+'] rest
      | '-' :: rest => readTailDigits [c, '-'] rest
      | _ => readTailDigits [c] rest
    else some ([], c :: rest)
  | [] => some ([], [])

/-- A number without its sign. Minus zero is no whole number. -/
def readUnsignedNumber (negative : Bool) (s : List Char) : Option (Json × List Char) := do
  let digits := s.takeWhile Char.isDigit
  if digits.isEmpty ∨ (digits.head? = some '0' ∧ 1 < digits.length) then none
  else
    let (fraction, rest) ← readFraction (s.dropWhile Char.isDigit)
    let (exponent, rest) ← readExponent rest
    let value := Nat.ofDigitChars 10 digits 0
    if fraction.isEmpty && exponent.isEmpty && !(negative && value = 0) then
      return (.int (if negative then -value else value), rest)
    else
      return (.real ((if negative then ['-'] else []) ++ digits ++ fraction ++ exponent), rest)

def readNumber : List Char → Option (Json × List Char)
  | '-' :: rest => readUnsignedNumber true rest
  | s => readUnsignedNumber false s

/-! ## Values -/

mutual

/-- A value at the front of a text, and the text behind it. -/
def readValue : Nat → List Char → Option (Json × List Char)
  | 0, _ => none
  | bound + 1, s =>
    match skipSpace s with
    | 'n' :: 'u' :: 'l' :: 'l' :: rest => some (.null, rest)
    | 't' :: 'r' :: 'u' :: 'e' :: rest => some (.bool true, rest)
    | 'f' :: 'a' :: 'l' :: 's' :: 'e' :: rest => some (.bool false, rest)
    | '"' :: rest => do
      let (value, after) ← readString rest
      return (.str value, after)
    | '[' :: rest =>
      match skipSpace rest with
      | ']' :: after => some (.arr [], after)
      | items => do
        let (items, after) ← readItems bound items
        return (.arr items, after)
    | '\x7b' :: rest =>
      match skipSpace rest with
      | '\x7d' :: after => some (.obj [], after)
      | members => do
        let (members, after) ← readMembers bound members
        return (.obj members, after)
    | number => readNumber number

/-- The items of an array up to its closing bracket, at least one. -/
def readItems : Nat → List Char → Option (List Json × List Char)
  | 0, _ => none
  | bound + 1, s => do
    let (item, rest) ← readValue bound s
    match skipSpace rest with
    | ',' :: rest => do
      let (items, after) ← readItems bound rest
      return (item :: items, after)
    | ']' :: after => return ([item], after)
    | _ => none

/-- The members of an object up to its closing brace, at least one. -/
def readMembers : Nat → List Char → Option (List (String × Json) × List Char)
  | 0, _ => none
  | bound + 1, s =>
    match skipSpace s with
    | '"' :: rest => do
      let (key, rest) ← readString rest
      match skipSpace rest with
      | ':' :: rest => do
        let (value, rest) ← readValue bound rest
        match skipSpace rest with
        | ',' :: rest => do
          let (members, after) ← readMembers bound rest
          return ((key, value) :: members, after)
        | '\x7d' :: after => return ([(key, value)], after)
        | _ => none
      | _ => none
    | _ => none

end

def read? (s : List Char) : Option Json := do
  let (value, rest) ← readValue (2 * s.length + 2) s
  if (skipSpace rest).isEmpty then some value else none

end Offside.Json
