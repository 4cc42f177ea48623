import Offside.Outline.Build
import Offside.Outline.Query

/-!
# Working on one document

A session holds a text, its indentation convention, and the outline of that text once it has been
asked for. A new text forgets the outline. Questions about lines need an outline and change nothing.

`perform` is one operation on a session, with its answer, and `run` a whole history of them.
-/

namespace Offside

/-- A document that is worked on, with its outline if that has been made. -/
structure Session where
  text : List Char
  tabs : Tabs
  outline : Option Outline
  deriving DecidableEq, Repr

namespace Session

def ofText (text : List Char) (tabs : Tabs) : Session := ⟨text, tabs, none⟩

def start : Session := ofText [] .default

def reset (_ : Session) (text : List Char) (tabs : Tabs) : Session := ofText text tabs

def parse (session : Session) : Session :=
  { session with
    outline := some (.ofTokens (tokens session.tabs session.text) (lineCount session.text)) }

/-- The blocks that a line is in, innermost first, and then the root. -/
def enclosing (session : Session) (line : Nat) : Except QueryError (List Node) :=
  match session.outline with
  | none => .error .notParsed
  | some outline => outline.enclosing line

/-- What can be done with a session. -/
inductive Operation where
  /-- Starts a session of its own on a text, in the place of this one. -/
  | new (text : List Char) (tabs : Tabs)
  | reset (text : List Char) (tabs : Tabs)
  | parse
  | enclosing (line : Nat)
  | outline
  /-- Gives a copy of the session up for its outline. -/
  | intoOutline
  deriving DecidableEq, Repr

/-- Whether an operation gives the session a text to work on. -/
def Operation.setsText : Operation → Bool
  | new .. | reset .. => true
  | _ => false

/-- Whether an operation only asks a question. -/
def Operation.isQuery : Operation → Bool
  | enclosing _ | outline | intoOutline => true
  | _ => false

/-- What an operation gives back. -/
inductive Answer where
  | done
  | outline (outline : Option Outline)
  | enclosing (nodes : Except QueryError (List Node))

/-- The session after an operation, and the operation's answer. -/
def perform (session : Session) : Operation → Session × Answer
  | .new text tabs => (ofText text tabs, .done)
  | .reset text tabs => (session.reset text tabs, .done)
  | .parse => (session.parse, .outline session.parse.outline)
  | .enclosing line => (session, .enclosing (session.enclosing line))
  | .outline | .intoOutline => (session, .outline session.outline)

/-- The session after some operations. -/
def run (session : Session) (operations : List Operation) : Session :=
  operations.foldl (fun session operation => (session.perform operation).1) session

end Session

end Offside
