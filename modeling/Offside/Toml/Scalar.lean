import Offside.Number.Real
import Offside.Toml.Date

/-!
# Values of TOML

What a TOML text can say: truth values, numbers, strings, dates, arrays and tables. A date is kept as
the text of its normal form, because nothing here computes with dates.

Truth values, whole numbers, other numbers and dates are scalars, each read from the whole word that
stands for it. A whole number has at most 63 binary digits and a sign; digits may be grouped by single
underscores; no decimal number begins with a zero that could be left out.
-/

namespace Offside.Toml

/-- A value of TOML. -/
inductive Value where
  | bool (value : Bool)
  | int (value : Int)
  | real (value : RealNumber)
  | text (value : String)
  | date (normalForm : String)
  | array (items : List Value)
  | table (entries : List (String × Value))
  deriving Inhabited

/-- The digits of a number whose digits may be grouped by underscores. -/
def digits? (isDigit : Char → Bool) : List Char → Option (List Char)
  | [] => none
  | [c] => if isDigit c then some [c] else none
  | c :: '_' :: rest => if isDigit c then (digits? isDigit rest).map (c :: ·) else none
  | c :: rest => if isDigit c then (digits? isDigit rest).map (c :: ·) else none

/-- The digits of a decimal number without needless zeros in front. -/
def decimalDigits? (s : List Char) : Option (List Char) := do
  let digits ← digits? Char.isDigit s
  if digits.head? = some '0' ∧ 1 < digits.length then none else some digits

/-- The value of a digit of a base of at most sixteen. -/
def digitValue (c : Char) : Nat :=
  if '0' ≤ c ∧ c ≤ '9' then c.toNat - '0'.toNat
  else if 'a' ≤ c ∧ c ≤ 'f' then c.toNat - 'a'.toNat + 10
  else c.toNat - 'A'.toNat + 10

def isHexDigit (c : Char) : Bool := c.isDigit || ('a' ≤ c && c ≤ 'f') || ('A' ≤ c && c ≤ 'F')

def ofDigits (base : Nat) (digits : List Char) : Nat :=
  digits.foldl (fun n c => n * base + digitValue c) 0

/-- Takes a sign off the front of a word: whether it was a minus sign, and the rest. -/
def sign : List Char → Bool × List Char
  | '-' :: rest => (true, rest)
  | '+' :: rest => (false, rest)
  | s => (false, s)

/-- A whole number in decimal digits, or without a sign in another base. -/
def integer? : List Char → Option Int
  | '0' :: 'x' :: rest => (digits? isHexDigit rest).bind fun ds => signed? (ofDigits 16 ds)
  | '0' :: 'o' :: rest =>
    (digits? (fun c => '0' ≤ c && c ≤ '7') rest).bind fun ds => signed? (ofDigits 8 ds)
  | '0' :: 'b' :: rest =>
    (digits? (fun c => c == '0' || c == '1') rest).bind fun ds => signed? (ofDigits 2 ds)
  | s => do
    let (negative, digits) := sign s
    let size := ofDigits 10 (← decimalDigits? digits)
    signed? (if negative then -size else size)

/-- The exponent of a number: the letter, a sign that may be missing, and digits. -/
def exponent? : List Char → Option Int
  | e :: rest => do
    if e ≠ 'e' ∧ e ≠ 'E' then none
    else
      let (negative, digits) := sign rest
      let size := ofDigits 10 (← digits? Char.isDigit digits)
      return if negative then -size else size
  | [] => none

/-- Whether a character ends the digits before a fraction or an exponent. -/
def endsDigits (c : Char) : Bool := c == '.' || c == 'e' || c == 'E'

/-- A number with a fraction, an exponent or both, without its sign. -/
def decimal? (s : List Char) : Option Decimal := do
  let whole ← decimalDigits? (s.takeWhile (!endsDigits ·))
  match s.dropWhile (!endsDigits ·) with
  | '.' :: rest =>
    let fraction ← digits? Char.isDigit (rest.takeWhile (!endsDigits ·))
    let exponent ← match rest.dropWhile (!endsDigits ·) with
      | [] => some 0
      | tail => exponent? tail
    return ⟨ofDigits 10 (whole ++ fraction), exponent - fraction.length⟩
  | tail => return ⟨ofDigits 10 whole, ← exponent? tail⟩

/-- A number with a fraction or an exponent, infinity, or no number. One that is too large to be
finite is refused, unless it is negative. -/
def real? (s : List Char) : Option RealNumber := do
  let (negative, size) := sign s
  if size = "inf".toList then some (.infinite negative)
  else if size = "nan".toList then some .notANumber
  else
    let size ← decimal? size
    if size.isFinite then some (.finite negative size)
    else if negative then some (.infinite true)
    else none

/-! ## Words -/

def scalar? (word : List Char) : Option Value :=
  if word = "true".toList then some (.bool true)
  else if word = "false".toList then some (.bool false)
  else match integer? word with
    | some value => some (.int value)
    | none => match real? word with
      | some value => some (.real value)
      | none => (date? word).map fun text => .date (String.ofList text)

def isScalar (c : Char) : Bool :=
  c.isAlphanum || c == '_' || c == '+' || c == '-' || c == '.' || c == ':'

/-- The word at the front of a text, and the text behind it. A day and a time of day with a space
between them are one word. -/
def word (s : List Char) : List Char × List Char :=
  let first := s.takeWhile isScalar
  match s.dropWhile isScalar with
  | ' ' :: rest =>
    let second := rest.takeWhile isScalar
    if isDay first && second[2]? == some ':' then (first ++ ' ' :: second, rest.dropWhile isScalar)
    else (first, ' ' :: rest)
  | rest => (first, rest)

end Offside.Toml
