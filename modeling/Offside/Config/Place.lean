import Offside.Config.Setting
import Offside.Number.Word

/-!
# Places of settings

A setting stands at a place: in a table under a name, or in a list at an index, and that inside other
tables and lists. A text names a place by words with dots between them, each of which may have indexes
in brackets behind it, as in `tabs.size` or `tabs[0]`. An index below zero counts from the end.

What is on the way to a place becomes what the place needs: a setting that is no table becomes an
empty table before a name is looked up in it, and one that is no list becomes an empty list. A list
grows until it has the index.
-/

namespace Offside.Config

/-- The entries of a table. -/
abbrev Table := List (String × Setting)

/-- A step on the way to a place. -/
inductive PlaceStep where
  /-- To the entry of a table. -/
  | entry (word : String)
  /-- To the item of a list. -/
  | item (index : Int)
  deriving DecidableEq, Repr

/-- A place in a table: the name of an entry, and the steps behind it. -/
structure Place where
  word : String
  steps : List PlaceStep
  deriving DecidableEq, Repr

namespace Place

/-! ## The text of a place -/

def isWordChar (c : Char) : Bool := c.isAlphanum || c == '_' || c == '-' || c == ' '

/-- A word at the front of a text, and the text behind it; a word is not empty. -/
def word? (s : List Char) : Option (String × List Char) :=
  let word := s.takeWhile isWordChar
  if word.isEmpty then none else some (String.ofList word, s.dropWhile isWordChar)

def isBlank (c : Char) : Bool := c == ' ' || c == '\t'

/-- A signed number at the front of a text, and the text behind it. -/
def index? (s : List Char) : Option (Int × List Char) :=
  let negative := s.head? = some '-'
  let s := if negative then s.tail else s
  let digits := s.takeWhile Char.isDigit
  if digits.isEmpty then none
  else
    let size := digits.foldl (fun n c => n * 10 + (c.toNat - '0'.toNat)) 0
    (signed? (if negative then -size else size)).map fun index => (index, s.dropWhile Char.isDigit)

/-- An index behind its opening bracket, and the text behind the closing one. -/
def bracketed? (s : List Char) : Option (Int × List Char) := do
  let (index, rest) ← index? (s.dropWhile isBlank)
  match rest.dropWhile isBlank with
  | ']' :: rest => some (index, rest)
  | _ => none

/-- The steps that a text names, at most `bound` of them. -/
def steps? : Nat → List Char → Option (List PlaceStep)
  | _, [] => some []
  | bound + 1, '.' :: s => do
    let (word, rest) ← word? s
    return .entry word :: (← steps? bound rest)
  | bound + 1, '[' :: s => do
    let (index, rest) ← bracketed? s
    return .item index :: (← steps? bound rest)
  | _, _ => none

def ofText? (text : String) : Option Place := do
  let (word, rest) ← word? text.toList
  return ⟨word, ← steps? rest.length rest⟩

end Place

end Offside.Config
