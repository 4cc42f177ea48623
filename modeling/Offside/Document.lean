import Offside.Line.Indentation
import Offside.Line.Kind
import Offside.Stream
import Offside.Text.Lines

/-!
# From a text to its tokens

A text is read line by line: each line gets one line token and a level (`lineToken`), and the levels
of all lines are spelled out as structural tokens between them (`tokens`).
-/

namespace Offside

open Offside.Text

/-- The token and level of a line, given its number. A blank line is `EMPTY`, at level zero. -/
def lineToken (tabs : Tabs) (number : Nat) (line : List Char) : LineToken :=
  if allBlank line then ⟨Token.structural .empty number, 0⟩
  else
    let kind := LineKind.ofLine line
    ⟨⟨kind.symbol, kind.attr, number, leadingByIndex line⟩, level tabs line⟩

def lineTokens (tabs : Tabs) (text : List Char) : List LineToken :=
  (lines text).zipIdx.map fun (line, number) => lineToken tabs number line

def lineCount (text : List Char) : Nat := (lines text).length

def tokens (tabs : Tabs) (text : List Char) : List Token :=
  (LevelTracker.start.run (lineTokens tabs text) (lineCount text)).1

end Offside
