import Offside.Number.Binary64

/-!
# Strings as YAML scalars

A string is written plain where that reads back as the same string, in single quotes where it would
otherwise read as another value or as syntax, and in double quotes where it holds a character that
cannot stand in a YAML text as it is.

The line and paragraph separators break lines. A string with one of them is not written plain, and
behind them the text goes on at the indentation of the scalar; next to a space they need double
quotes. A string with line feeds has forms of its own in YAML, which are not written here; it gets
double quotes.
-/

namespace Offside.Yaml

/-- The ways to write a string. -/
inductive ScalarStyle where
  | plain
  | singleQuoted
  | doubleQuoted
  deriving DecidableEq, Repr

/-- Whether a character can stand in a text as it is. -/
def isPrintable (c : Char) : Bool :=
  let code := c.toNat
  ((0x20 ≤ code && code ≤ 0x7E) || 0xA0 ≤ code) && code != 0xFEFF && code != 0xFFFE &&
    code != 0xFFFF

/-! ## Strings that read as other values -/

def dropSign : List Char → List Char
  | '+' :: rest => rest
  | '-' :: rest => rest
  | s => s

/-- The words that stand for no value and for truth values. -/
def reservedWords : List String :=
  ["null", "Null", "NULL", "~", "true", "True", "TRUE", "false", "False", "FALSE"]

def infinities : List String := [".inf", ".Inf", ".INF"]

def notNumbers : List String := [".nan", ".NaN", ".NAN"]

/-- The value of a digit in a base of at most sixteen. -/
def digitValue? (base : Nat) (c : Char) : Option Nat :=
  let value? :=
    if '0' ≤ c ∧ c ≤ '9' then some (c.toNat - '0'.toNat)
    else if 'a' ≤ c ∧ c ≤ 'f' then some (c.toNat - 'a'.toNat + 10)
    else if 'A' ≤ c ∧ c ≤ 'F' then some (c.toNat - 'A'.toNat + 10)
    else none
  value?.filter (· < base)

/-- The number that some digits of a base stand for; at least one is needed. -/
def readBase? (base : Nat) (s : List Char) : Option Nat :=
  if s.isEmpty then none
  else s.foldlM (fun n c => (digitValue? base c).map (n * base + ·)) 0

/-- The size of the whole number that digits stand for, which may be digits of another base. -/
def readSize? : List Char → Option Nat
  | '0' :: 'x' :: digits => readBase? 16 digits
  | '0' :: 'o' :: digits => readBase? 8 digits
  | '0' :: 'b' :: digits => readBase? 2 digits
  | digits => readBase? 10 digits

/-- Whether a text is decimal digits with a zero in front that could be left out. -/
def hasNeedlessZero (digits : List Char) : Bool :=
  digits.head? == some '0' && 1 < digits.length && digits.all Char.isDigit

/-- Whether a text reads as a whole number: one of 128 binary digits, unsigned or signed, or decimal
digits with needless zeros in front. -/
def readsAsInteger (s : List Char) : Bool :=
  let limit := if s.head? = some '-' then Nat.pow 2 127 else Nat.pow 2 128 - 1
  (readSize? (dropSign s)).any (· ≤ limit) || hasNeedlessZero (dropSign s)

/-- The exponent of a number: the letter `e`, a sign that may be missing, and digits. -/
def readExponent? : List Char → Option Int
  | [] => some 0
  | e :: rest =>
    if e = 'e' ∨ e = 'E' then
      match rest with
      | '-' :: digits => (readBase? 10 digits).map fun n => -(n : Int)
      | '+' :: digits => (readBase? 10 digits).map Int.ofNat
      | digits => (readBase? 10 digits).map Int.ofNat
    else none

/-- A number with a point or an exponent, as a decimal; a digit is needed before or behind the
point. -/
def readDecimal? (s : List Char) : Option Decimal := do
  let whole := s.takeWhile Char.isDigit
  let rest := s.dropWhile Char.isDigit
  let (fraction, rest) := match rest with
    | '.' :: rest => (rest.takeWhile Char.isDigit, rest.dropWhile Char.isDigit)
    | rest => ([], rest)
  let coefficient ← readBase? 10 (whole ++ fraction)
  let exponent ← readExponent? rest
  return ⟨coefficient, exponent - fraction.length⟩

/-- Whether a text reads as a floating-point number; one that is too large does not. -/
def readsAsFloat (s : List Char) : Bool :=
  infinities.any (·.toList == dropSign s) || notNumbers.any (·.toList == s) ||
    (readDecimal? (dropSign s)).any Decimal.isFinite

/-- Whether a text would read as a value that is not a string. -/
def readsAsOther (s : List Char) : Bool :=
  s.isEmpty || reservedWords.any (·.toList == s) || readsAsInteger s || readsAsFloat s

/-! ## Strings that read as syntax -/

/-- Characters that mean something of their own at the start of a value. -/
def isIndicator (c : Char) : Bool := "#,[]\x7b\x7d&*!|>'\"%@\x60".toList.contains c

/-- Whether a text begins like a marker between documents. -/
def startsLikeMarker (s : List Char) : Bool :=
  "---".toList.isPrefixOf s || "...".toList.isPrefixOf s

/-- Whether a text begins with a sign that means something if a space or nothing follows. -/
def startsLikeEntry : List Char → Bool
  | c :: rest => (c == '-' || c == '?' || c == ':') && (rest.isEmpty || rest.head? == some ' ')
  | [] => false

/-- Whether a text holds a colon before a space or a hash behind one. -/
def holdsSeparator : List Char → Bool
  | a :: b :: rest => (a == ':' && b == ' ') || (a == ' ' && b == '#') || holdsSeparator (b :: rest)
  | _ => false

/-- Whether a text would not read as one plain string. -/
def readsAsSyntax (s : List Char) : Bool :=
  startsLikeMarker s || s.head?.any isIndicator || startsLikeEntry s || s.head? == some ' ' ||
    s.getLast? == some ' ' || holdsSeparator s || s.getLast? == some ':'

/-! ## Line breaks -/

/-- The characters that can stand in a text and break its lines: the line and the paragraph
separator. -/
def isSeparator (c : Char) : Bool := c == '\u2028' || c == '\u2029'

def breaksAtSpace : List Char → Bool
  | a :: b :: rest =>
    (isSeparator a && b == ' ') || (a == ' ' && isSeparator b) || breaksAtSpace (b :: rest)
  | _ => false

/-! ## Writing -/

def scalarStyle (s : List Char) : ScalarStyle :=
  if !s.all isPrintable || breaksAtSpace s then .doubleQuoted
  else if readsAsOther s || readsAsSyntax s || s.any isSeparator then .singleQuoted
  else .plain

/-- Hexadecimal digits in capitals, so many of them. -/
def hexDigits : Nat → Nat → List Char
  | 0, _ => []
  | count + 1, n => hexDigits count (n / 16) ++ [(Nat.digitChar (n % 16)).toUpper]

/-- How a character is written between double quotes. -/
def escape (c : Char) : List Char :=
  let code := c.toNat
  if c = '"' ∨ c = '\\' then ['\\', c]
  else if c = '\u2028' then ['\\', 'L']
  else if c = '\u2029' then ['\\', 'P']
  else if isPrintable c then [c]
  else match code with
    | 0x00 => ['\\', '0']
    | 0x07 => ['\\', 'a']
    | 0x08 => ['\\', 'b']
    | 0x09 => ['\\', 't']
    | 0x0A => ['\\', 'n']
    | 0x0B => ['\\', 'v']
    | 0x0C => ['\\', 'f']
    | 0x0D => ['\\', 'r']
    | 0x1B => ['\\', 'e']
    | 0x85 => ['\\', 'N']
    | _ =>
      if code ≤ 0xFF then '\\' :: 'x' :: hexDigits 2 code
      else if code ≤ 0xFFFF then '\\' :: 'u' :: hexDigits 4 code
      else '\\' :: 'U' :: hexDigits 8 code

/-- How a character is written between single quotes. -/
def doubleQuote (c : Char) : List Char := if c = '\'' then ['\'', '\''] else [c]

/-- How a string is written between single quotes. What follows line breaks, be it the closing quote,
stands behind so many blanks; `broken` says whether a line break has just been written. -/
def singleQuoted (indent : Nat) (broken : Bool) : List Char → List Char
  | [] => if broken then List.replicate indent ' ' else []
  | c :: rest =>
    if isSeparator c then c :: singleQuoted indent true rest
    else
      (if broken then List.replicate indent ' ' else []) ++
        (doubleQuote c ++ singleQuoted indent false rest)

/-- Without line breaks only the quotes in a string change. -/
theorem singleQuoted_eq_flatMap (indent : Nat) {s : List Char} (h : s.all (!isSeparator ·)) :
    singleQuoted indent false s = s.flatMap doubleQuote := by
  induction s with
  | nil => rfl
  | cons c rest ih => grind [singleQuoted]

/-- A string as a scalar, given the indentation of its further lines. -/
def scalar (indent : Nat) (s : List Char) : List Char :=
  match scalarStyle s with
  | .plain => s
  | .singleQuoted => '\'' :: singleQuoted indent false s ++ ['\'']
  | .doubleQuoted => '"' :: s.flatMap escape ++ ['"']

end Offside.Yaml
