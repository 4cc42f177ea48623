import Offside.Lexeme.Scan

/-!
# What a line introduces

A line that is not blank introduces a block or is a plain statement. Its first significant lexeme
decides: a keyword announces a kind of block, and the rest of the line must then have the shape that
this kind asks for. A line without that shape is a statement, and a statement never opens a block.

```text
function   def NAME ( ...          also after async
class      class NAME ...
if elif while                      CLAUSE :
for with                           CLAUSE :   also after async
except                             CLAUSE :   or :
else try finally                   :
```

A clause is the text from the keyword up to the first colon outside brackets. String literals are
pieces of their own, so nothing inside one is a colon or a bracket; a comment ends the search; the
assignment operator is no colon.
-/

namespace Offside

open Offside.Text

/-- What the rest of a line must look like after a keyword. -/
inductive HeaderShape where
  /-- A name, then an opening bracket. -/
  | parameters
  /-- A name. -/
  | name
  /-- A clause that is not empty, then a colon. -/
  | clause
  /-- A clause, which may be empty, then a colon. -/
  | optionalClause
  /-- A colon. -/
  | bare
  deriving DecidableEq, Repr

namespace BlockKind

/-- The shape of the lines that open a kind of block. -/
def shape : BlockKind → HeaderShape
  | function => .parameters
  | classBody => .name
  | ifBranch | elifBranch | whileLoop | forLoop | withBody => .clause
  | exceptHandler => .optionalClause
  | elseBranch | tryBody | finallyBody => .bare

/-- The kinds of block that `async` may announce together with their own keyword. -/
def allowsAsync : BlockKind → Bool
  | function | forLoop | withBody => true
  | _ => false

end BlockKind

/-- What a line introduces: nothing but itself, or a block, with a name or clause that may be
missing. -/
inductive LineKind where
  | statement
  | opens (kind : BlockKind) (attr : Option String)
  deriving DecidableEq, Repr

/-- Whether a piece is a lexeme other than spacing. -/
def Piece.isSignificant (piece : Piece) : Bool :=
  match piece.kind with
  | none | some .whitespace => false
  | some _ => true

def fromSignificant (line : List Piece) : List Piece := line.dropWhile (!·.isSignificant)

/-- The text before the first colon outside brackets, given how many brackets are open. There is none
if a comment or the end of the line comes first. A closing bracket with no partner is ignored. -/
def textBeforeColon (depth : Nat) : List Piece → Option (List Char)
  | [] => none
  | piece :: rest =>
    match piece.kind with
    | some .comment => none
    | some .colon =>
      if depth = 0 then some [] else (textBeforeColon depth rest).map (piece.text ++ ·)
    | some .openBracket => (textBeforeColon (depth + 1) rest).map (piece.text ++ ·)
    | some .closeBracket => (textBeforeColon (depth - 1) rest).map (piece.text ++ ·)
    | _ => (textBeforeColon depth rest).map (piece.text ++ ·)

/-- The clause between a keyword and the colon that opens its block, without the blanks around it. -/
def clause (rest : List Piece) : Option (List Char) := (textBeforeColon 0 rest).map trim

namespace LineKind

/-- What a line introduces that announces a kind of block, from the pieces after the keyword. -/
def announced (kind : BlockKind) (rest : List Piece) : LineKind :=
  match kind.shape with
  | .parameters =>
    match fromSignificant rest with
    | ⟨some .identifier, name⟩ :: rest =>
      match fromSignificant rest with
      | ⟨some .openBracket, _⟩ :: _ => opens kind (some (String.ofList name))
      | _ => statement
    | _ => statement
  | .name =>
    match fromSignificant rest with
    | ⟨some .identifier, name⟩ :: _ => opens kind (some (String.ofList name))
    | _ => statement
  | .clause =>
    match clause rest with
    | none | some [] => statement
    | some text => opens kind (some (String.ofList text))
  | .optionalClause =>
    match clause rest with
    | none => statement
    | some [] => opens kind none
    | some text => opens kind (some (String.ofList text))
  | .bare =>
    match fromSignificant rest with
    | ⟨some .colon, _⟩ :: _ => opens kind none
    | _ => statement

def ofPieces (line : List Piece) : LineKind :=
  match fromSignificant line with
  | ⟨some (.keyword (.announce kind)), _⟩ :: rest => announced kind rest
  | ⟨some (.keyword .async), _⟩ :: rest =>
    match fromSignificant rest with
    | ⟨some (.keyword (.announce kind)), _⟩ :: rest =>
      if kind.allowsAsync then announced kind rest else statement
    | _ => statement
  | _ => statement

/-- What a line introduces; its leading blanks do not matter. -/
def ofLine (line : List Char) : LineKind := ofPieces (pieces (trimStart line))

def symbol : LineKind → Symbol
  | statement => .statement
  | opens kind _ => .block kind

def attr : LineKind → Option String
  | statement => none
  | opens _ attr => attr

end LineKind

end Offside
