import Offside.Tabs

/-!
# Indentation of a line

How deep a line stands. Leading blanks are counted in characters, by either of two methods; a blank
line counts its whole length under both. Blank lines have no level of their own, so `level` is zero
for them whatever they hold.
-/

namespace Offside

open Offside.Text

/-- The ways to count leading blanks. -/
inductive CountMethod where
  /-- The index of the first character that is not blank. -/
  | index
  /-- The difference in length that trimming the start makes. -/
  | arithmetic
  deriving DecidableEq, Repr

/-- The index of the first character that is not blank; the length of the line if there is none. -/
def leadingByIndex (line : List Char) : Nat := line.findIdx (!isBlank ·)

/-- The length of the line less its length after the start is trimmed. -/
def leadingByDifference (line : List Char) : Nat := line.length - (trimStart line).length

/-- The leading blanks of a line, counted by a method. -/
def CountMethod.count : CountMethod → List Char → Nat
  | index => leadingByIndex
  | arithmetic => leadingByDifference

def level (tabs : Tabs) (line : List Char) : Nat :=
  if allBlank line then 0 else tabs.units (leadingByIndex line)

/-- Whether the leading blanks of a line hold both tabs and spaces. -/
def hasMixedIndentation (line : List Char) : Bool :=
  let leading := line.takeWhile isBlank
  leading.contains '\t' && leading.contains ' '

end Offside
