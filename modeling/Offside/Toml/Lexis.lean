/-!
# The characters of TOML

Blanks, comments, line ends, keys and strings. Each reader takes what it reads off the front of a
text and gives back the rest; it gives nothing if the text does not begin with what it reads.

A line ends at a line feed, which one carriage return may precede. No control character but the tab
stands in a comment or a string as it is, and only a string in triple quotes goes over line ends.
-/

namespace Offside.Toml

def isSpace (c : Char) : Bool := c == ' ' || c == '\t'

def skipSpace (s : List Char) : List Char := s.dropWhile isSpace

/-- Characters that no comment and no string holds as they are. -/
def isControl (c : Char) : Bool := (c.toNat < 0x20 && c != '\t') || c.toNat == 0x7F

/-- A text without the comment in front, if there is one. -/
def skipComment : List Char → List Char
  | '#' :: rest => rest.dropWhile (!isControl ·)
  | s => s

/-- The text behind a line end. The end of the text is one, too. -/
def lineEnd? : List Char → Option (List Char)
  | [] => some []
  | '\n' :: rest => some rest
  | '\r' :: '\n' :: rest => some rest
  | _ => none

/-- The text behind blanks, a comment and a line end. -/
def restOfLine? (s : List Char) : Option (List Char) := lineEnd? (skipComment (skipSpace s))

/-! ## Strings -/

def hexValue? (c : Char) : Option Nat :=
  if '0' ≤ c ∧ c ≤ '9' then some (c.toNat - '0'.toNat)
  else if 'a' ≤ c ∧ c ≤ 'f' then some (c.toNat - 'a'.toNat + 10)
  else if 'A' ≤ c ∧ c ≤ 'F' then some (c.toNat - 'A'.toNat + 10)
  else none

/-- The character with a code in hexadecimal digits, if there is one. -/
def charOfHex? (digits : List Char) : Option Char := do
  let code ← digits.foldlM (fun n c => (hexValue? c).map (n * 16 + ·)) 0
  if code.isValidChar then some (Char.ofNat code) else none

/-- The character that stands behind a backslash for another one. -/
def unescape? (c : Char) : Option Char :=
  if c = '"' ∨ c = '\\' then some c
  else if c = 'b' then some '\x08'
  else if c = 't' then some '\t'
  else if c = 'n' then some '\n'
  else if c = 'f' then some '\x0c'
  else if c = 'r' then some '\r'
  else none

/-- A string behind its opening quote, in which a backslash begins an escape. -/
def basicString? : List Char → Option (List Char × List Char)
  | [] => none
  | '\\' :: 'u' :: a :: b :: c :: d :: rest => do
    let char ← charOfHex? [a, b, c, d]
    let (text, after) ← basicString? rest
    return (char :: text, after)
  | '\\' :: 'U' :: a :: b :: c :: d :: e :: f :: g :: h :: rest => do
    let char ← charOfHex? [a, b, c, d, e, f, g, h]
    let (text, after) ← basicString? rest
    return (char :: text, after)
  | '\\' :: c :: rest => do
    let char ← unescape? c
    let (text, after) ← basicString? rest
    return (char :: text, after)
  | c :: rest =>
    if c = '"' then some ([], rest)
    else if c = '\\' || isControl c then none
    else do
      let (text, after) ← basicString? rest
      return (c :: text, after)

/-- A string behind its opening quote, in which nothing has a meaning of its own. -/
def literalString? (s : List Char) : Option (List Char × List Char) :=
  match s.dropWhile fun c => c != '\'' && !isControl c with
  | '\'' :: after => some (s.takeWhile fun c => c != '\'' && !isControl c, after)
  | _ => none

/-- A text without the line end right behind an opening triple quote. -/
def skipFirstLineEnd : List Char → List Char
  | '\n' :: rest => rest
  | '\r' :: '\n' :: rest => rest
  | s => s

/-- Whether a text begins with blanks up to a line end. -/
def endsLine : List Char → Bool
  | '\n' :: _ => true
  | '\r' :: '\n' :: _ => true
  | c :: rest => isSpace c && endsLine rest
  | [] => false

/-- A string behind its opening triple quote. Up to two more quotes may stand before the closing
ones. With `skipping`, blanks and line ends are dropped, as they are behind a backslash at the end of
a line. -/
def longBasicString? (skipping : Bool) : List Char → Option (List Char × List Char)
  | [] => none
  | '"' :: '"' :: '"' :: '"' :: '"' :: rest => some (['"', '"'], rest)
  | '"' :: '"' :: '"' :: '"' :: rest => some (['"'], rest)
  | '"' :: '"' :: '"' :: rest => some ([], rest)
  | '\\' :: 'u' :: a :: b :: c :: d :: rest => do
    let char ← charOfHex? [a, b, c, d]
    let (text, after) ← longBasicString? false rest
    return (char :: text, after)
  | '\\' :: 'U' :: a :: b :: c :: d :: e :: f :: g :: h :: rest => do
    let char ← charOfHex? [a, b, c, d, e, f, g, h]
    let (text, after) ← longBasicString? false rest
    return (char :: text, after)
  | '\r' :: '\n' :: rest => do
    let (text, after) ← longBasicString? skipping rest
    return (if skipping then text else '\n' :: text, after)
  | '\\' :: c :: rest =>
    if endsLine (c :: rest) then longBasicString? true (c :: rest)
    else do
      let char ← unescape? c
      let (text, after) ← longBasicString? false rest
      return (char :: text, after)
  | c :: rest =>
    if skipping && (isSpace c || c == '\n') then longBasicString? true rest
    else if c = '\\' || (isControl c && c != '\n') then none
    else do
      let (text, after) ← longBasicString? false rest
      return (c :: text, after)

/-- A string behind its opening triple quote, in which nothing has a meaning of its own. -/
def longLiteralString? : List Char → Option (List Char × List Char)
  | [] => none
  | '\'' :: '\'' :: '\'' :: '\'' :: '\'' :: rest => some (['\'', '\''], rest)
  | '\'' :: '\'' :: '\'' :: '\'' :: rest => some (['\''], rest)
  | '\'' :: '\'' :: '\'' :: rest => some ([], rest)
  | '\r' :: '\n' :: rest => do
    let (text, after) ← longLiteralString? rest
    return ('\n' :: text, after)
  | c :: rest =>
    if isControl c && c != '\n' then none
    else do
      let (text, after) ← longLiteralString? rest
      return (c :: text, after)

def string? : List Char → Option (List Char × List Char)
  | '"' :: '"' :: '"' :: rest => longBasicString? false (skipFirstLineEnd rest)
  | '\'' :: '\'' :: '\'' :: rest => longLiteralString? (skipFirstLineEnd rest)
  | '"' :: rest => basicString? rest
  | '\'' :: rest => literalString? rest
  | _ => none

/-! ## Keys -/

def isBareKey (c : Char) : Bool := c.isAlphanum || c == '_' || c == '-'

def simpleKey? : List Char → Option (String × List Char)
  | '"' :: rest => (basicString? rest).map fun (text, after) => (String.ofList text, after)
  | '\'' :: rest => (literalString? rest).map fun (text, after) => (String.ofList text, after)
  | s =>
    let word := s.takeWhile isBareKey
    if word.isEmpty then none else some (String.ofList word, s.dropWhile isBareKey)

/-- The most parts of a key, and the most arrays and inline tables inside each other. -/
def maxDepth : Nat := 79

/-- The parts of a key with dots between them, at most `bound` of them. Blanks may stand around each
part. -/
def keyParts? : Nat → List Char → Option (List String × List Char)
  | 0, _ => none
  | bound + 1, s => do
    let (part, rest) ← simpleKey? (skipSpace s)
    match skipSpace rest with
    | '.' :: rest => do
      let (parts, after) ← keyParts? bound rest
      return (part :: parts, after)
    | rest => return ([part], rest)

/-- A key at the front of a text, and the text behind it. -/
def key? (s : List Char) : Option (List String × List Char) := keyParts? maxDepth s

end Offside.Toml
