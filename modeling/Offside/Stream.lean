import Offside.Token

/-!
# Indentation as tokens

A document's levels, one for each line, become a stream of tokens in which a change of level is
spelled out: an `INDENT` for each unit gained and a `DEDENT` for each unit lost, in front of the line
that makes the change. Blank lines pass through and change nothing. At the end of the document every
unit still open is closed, and one `EOF` follows.

`LevelTracker` holds the level reached so far. A whole document leaves the tracker as it found it at
the start, at level zero (`run_level`), so one tracker can serve any number of documents.
-/

namespace Offside

/-- The token of a line, and the level at which the line stands. -/
structure LineToken where
  token : Token
  level : Nat
  deriving DecidableEq, Repr

/-- The level that a stream of tokens has reached. -/
structure LevelTracker where
  level : Nat
  deriving DecidableEq, Repr

namespace LevelTracker

def start : LevelTracker := ⟨0⟩

/-- The structural tokens that lead from the tracker's level to another one, at a line. -/
def changes (tracker : LevelTracker) (level line : Nat) : List Token :=
  List.replicate (level - tracker.level) (Token.structural .indent line) ++
    List.replicate (tracker.level - level) (Token.structural .dedent line)

/-- The tokens for one line, and the tracker after it. -/
def step (tracker : LevelTracker) (line : LineToken) : List Token × LevelTracker :=
  if line.token.symbol = .empty then ([line.token], tracker)
  else (tracker.changes line.level line.token.line ++ [line.token], ⟨line.level⟩)

/-- The tokens for some lines, and the tracker after them. -/
def steps (tracker : LevelTracker) : List LineToken → List Token × LevelTracker
  | [] => ([], tracker)
  | line :: rest =>
    let (tokens, next) := tracker.step line
    let (more, last) := next.steps rest
    (tokens ++ more, last)

/-- The tokens that end a document of so many lines. -/
def finish (tracker : LevelTracker) (lineCount : Nat) : List Token :=
  tracker.changes 0 lineCount ++ [Token.structural .eof lineCount]

/-- The tokens of a whole document, and the tracker after it. -/
def run (tracker : LevelTracker) (lines : List LineToken) (lineCount : Nat) :
    List Token × LevelTracker :=
  let (tokens, last) := tracker.steps lines
  (tokens ++ last.finish lineCount, start)

/-- The tokens of several documents, given as lines and line count, that one tracker meets in turn. -/
def runAll (tracker : LevelTracker) : List (List LineToken × Nat) → List (List Token)
  | [] => []
  | (lines, lineCount) :: rest =>
    let (tokens, next) := tracker.run lines lineCount
    tokens :: next.runAll rest

/-- A document leaves the tracker at level zero. -/
theorem run_level (tracker : LevelTracker) (lines : List LineToken) (lineCount : Nat) :
    (tracker.run lines lineCount).2 = start := rfl

end LevelTracker

end Offside
