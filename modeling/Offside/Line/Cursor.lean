import Offside.Line.Indentation

/-!
# The words around a cursor

A word is a longest run of characters that are not blank. The words around a cursor are those within
a window of the word under it. A cursor outside the line's content counts as standing on the first or
last character of it; a cursor directly behind a word still stands at that word. Between words that
are further apart there is no word to anchor on.

Columns count characters from zero.
-/

namespace Offside

open Offside.Text

/-- A word and the columns it takes up, `start` up to and not including `stop`. -/
structure Word where
  text : List Char
  start : Nat
  stop : Nat
  deriving DecidableEq, Repr

/-- The words of a text whose first character stands at a column. -/
def wordsFrom (column : Nat) : List Char → List Word
  | [] => []
  | c :: rest =>
    if isBlank c then wordsFrom (column + 1) rest
    else match wordsFrom (column + 1) rest with
      | [] => [⟨[c], column, column + 1⟩]
      | word :: more =>
        if word.start = column + 1 then ⟨c :: word.text, column, word.stop⟩ :: more
        else ⟨[c], column, column + 1⟩ :: word :: more

def words (line : List Char) : List Word := wordsFrom 0 line

/-- A column moved to the nearest one that the line's content takes up. -/
def clampColumn (line : List Char) (column : Nat) : Nat :=
  let leading := leadingByDifference line
  max leading (min column (leading + (trim line).length - 1))

/-- Whether a cursor at a column stands at a word: on one of its characters or directly behind it. -/
def Word.holds (word : Word) (column : Nat) : Bool := word.start ≤ column && column ≤ word.stop

/-- The words around a column, at most `window` on either side of the one at the column, each with
a space behind it. A blank line, and a column between two words, has none. -/
def cursorContext (line : List Char) (column window : Nat) : Option String :=
  if allBlank line then none
  else do
    let all := words line
    let cursor := clampColumn line column
    let index ← all.findIdx? (·.holds cursor)
    let shown := (all.take (index + window + 1)).drop (index - window)
    return String.join (shown.map fun word => String.ofList word.text ++ " ")

end Offside
