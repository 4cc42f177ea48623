/-!
# Symbols and line tokens

A line token says what one line of a document introduces: a block of some kind, a plain statement,
or nothing (an empty line). Between line tokens stand structural tokens, which mark changes of
indentation and the end of the document.

A block's kind decides everything about it that does not depend on its text, so `Symbol` keeps the
eleven block kinds apart from the five symbols that open no block.
-/

namespace Offside

/-- The constructs that open a block. -/
inductive BlockKind where
  | function
  | classBody
  | ifBranch
  | elifBranch
  | elseBranch
  | forLoop
  | whileLoop
  | tryBody
  | exceptHandler
  | finallyBody
  | withBody
  deriving DecidableEq, Repr

namespace BlockKind

/-- Every block kind, in the order in which they are listed to users. -/
def all : List BlockKind :=
  [function, classBody, ifBranch, elifBranch, elseBranch, forLoop, whileLoop, tryBody, exceptHandler,
   finallyBody, withBody]

/-- The name of a block kind in every report and format. -/
def name : BlockKind → String
  | function => "function"
  | classBody => "class"
  | ifBranch => "if"
  | elifBranch => "elif"
  | elseBranch => "else"
  | forLoop => "for"
  | whileLoop => "while"
  | tryBody => "try"
  | exceptHandler => "except"
  | finallyBody => "finally"
  | withBody => "with"

end BlockKind

/-- What a token stands for. -/
inductive Symbol where
  /-- A line that opens a block. -/
  | block (kind : BlockKind)
  /-- Any other line that is not blank. -/
  | statement
  /-- One level deeper. -/
  | indent
  /-- One level back. -/
  | dedent
  /-- A blank line. -/
  | empty
  /-- The end of the document. -/
  | eof
  deriving DecidableEq, Repr

namespace Symbol

/-- Every symbol, in the order in which they are listed to users. -/
def all : List Symbol := BlockKind.all.map block ++ [statement, indent, dedent, empty, eof]

/-- The name of a symbol as it is shown; structural symbols are in capitals. -/
def name : Symbol → String
  | block kind => kind.name
  | statement => "statement"
  | indent => "INDENT"
  | dedent => "DEDENT"
  | empty => "EMPTY"
  | eof => "EOF"

/-- The name of a symbol in data formats, where no name is in capitals. -/
def code : Symbol → String
  | block kind => kind.name
  | statement => "statement"
  | indent => "indent"
  | dedent => "dedent"
  | empty => "empty"
  | eof => "eof"

/-- The symbol that a data format's name stands for. -/
def ofCode? (code : String) : Option Symbol := all.find? (·.code == code)

/-- Structural symbols carry no text of a line. -/
def isStructural : Symbol → Bool
  | indent | dedent | empty | eof => true
  | block _ | statement => false

def opensBlock : Symbol → Bool
  | block _ => true
  | _ => false

/-- A symbol is the one its code stands for. -/
theorem ofCode?_code (s : Symbol) : ofCode? s.code = some s := by
  rcases s with kind | _ | _ | _ | _ | _
  · cases kind <;> decide +kernel
  all_goals decide +kernel

end Symbol

/-- One token of a document: its symbol, the text that goes with it (a name or a clause), and where it
stands. Lines and columns count from zero, columns in characters. -/
structure Token where
  symbol : Symbol
  attr : Option String
  line : Nat
  column : Nat
  deriving DecidableEq, Repr

namespace Token

/-- A token that no line's text belongs to. It stands at the start of its line. -/
def structural (symbol : Symbol) (line : Nat) : Token := ⟨symbol, none, line, 0⟩

def isStructural (t : Token) : Bool := t.symbol.isStructural

/-- The words that describe a token: its symbol's name, and its text if it has one. -/
def describe (t : Token) : String :=
  match t.attr with
  | some attr => t.symbol.name ++ " " ++ attr
  | none => t.symbol.name

/-- The one-line form of a token: name, text in parentheses if there is one, and place. -/
def display (t : Token) : String :=
  let name := match t.attr with
    | some attr => t.symbol.name ++ "(" ++ attr ++ ")"
    | none => t.symbol.name
  name ++ "@" ++ t.line.repr ++ ":" ++ t.column.repr

end Token

end Offside
