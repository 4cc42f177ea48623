import Offside.Line.Report
import Offside.Session

/-!
# Describing where a line is

The sentence that tells a user which blocks a line is in, innermost first. The block that the line
itself opens comes first, behind a colon; every other block is one that the line is inside of; the
document comes last.
-/

namespace Offside

def rootPhrase : String := " in the Document Root"

/-- The words for a token that a line is inside of; a structural token has none. -/
def insidePhrase (token : Token) : String :=
  if token.isStructural then "" else " inside " ++ token.describe

def Node.phrase (node : Node) : String :=
  if node.isRoot then rootPhrase else (node.token.map insidePhrase).getD ""

/-- The words for the innermost node of a line. If it is the line itself, the line is not inside of
it. -/
def Node.firstPhrase (line : Nat) (node : Node) : String :=
  if node.isRoot then rootPhrase
  else match node.token with
    | none => ""
    | some token =>
      if token.line = line && !token.isStructural then ": " ++ token.describe else insidePhrase token

/-- The sentence for a line and the nodes that enclose it, innermost first. -/
def contextSentence (path : List Node) (line : Nat) : Except QueryError String :=
  match path with
  | [] => .error .emptyContext
  | first :: rest =>
    .ok (Report.lineNumber line ++ first.firstPhrase line ++ String.join (rest.map Node.phrase))

/-- The sentence for a line of an outlined document. -/
def Outline.contextSentence (outline : Outline) (line : Nat) : Except QueryError String := do
  Offside.contextSentence (← outline.enclosing line) line

/-- The sentence for a line of the document that is worked on. -/
def Session.contextSentence (session : Session) (line : Nat) : Except QueryError String := do
  Offside.contextSentence (← session.enclosing line) line

end Offside
