import Offside.Token

/-!
# Lexemes of a line

The vocabulary into which the text of one line is split. Eleven of the twelve keywords each announce
one kind of block, so a keyword is `async` or the announcement of a block kind. Only `def` is spelled
unlike the name of the block that it announces.

A line is cut into pieces that together are the whole line (`Offside.Lexeme.Scan`). Most pieces are
lexemes. A piece without a kind is text that no lexeme matches: blanks that are not ordinary spacing,
and the rest of a line after a quote that is never closed.
-/

namespace Offside

/-- A word with a meaning of its own. -/
inductive Keyword where
  /-- The word `async`, which may come before some announcements. -/
  | async
  /-- The word that announces a block. -/
  | announce (kind : BlockKind)
  deriving DecidableEq, Repr

namespace Keyword

def all : List Keyword := async :: BlockKind.all.map announce

def text : Keyword → String
  | async => "async"
  | announce .function => "def"
  | announce kind => kind.name

def ofText? (word : List Char) : Option Keyword := all.find? (·.text.toList == word)

end Keyword

/-- The kinds of lexeme. -/
inductive LexemeKind where
  | keyword (word : Keyword)
  | identifier
  | colon
  /-- The assignment operator `:=`, which is never taken for a colon. -/
  | walrus
  | openBracket
  | closeBracket
  | stringLiteral
  | comment
  /-- A run of ordinary spacing. -/
  | whitespace
  /-- A run of anything else: digits, operators, commas. -/
  | other
  deriving DecidableEq, Repr

/-- A part of a line's text: a lexeme of some kind, or, without a kind, text that no lexeme
matches. -/
structure Piece where
  kind : Option LexemeKind
  text : List Char
  deriving DecidableEq, Repr

/-- A lexeme with its place in the line, in bytes of the line's UTF-8 form: `start` up to and not
including `stop`. -/
structure Lexeme where
  kind : LexemeKind
  text : List Char
  start : Nat
  stop : Nat
  deriving DecidableEq, Repr

end Offside
