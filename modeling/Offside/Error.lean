/-!
# Errors of the library

The ways in which a query about a document fails, each with what its message needs, and one function
that words them all. Lines count from zero in every message.
-/

namespace Offside

/-- What is wrong with a table of nodes that makes a question about it unanswerable. -/
inductive Fault where
  /-- A reference to a node that an outline of `size` nodes does not have. -/
  | missingNode (size index : Nat)
  /-- References that lead back to where they came from, so that the walk would never end. -/
  | endless
  /-- A depth for which no line of a listing can be long enough. -/
  | tooDeep
  deriving DecidableEq, Repr

def Fault.message : Fault → String
  | missingNode size index =>
    "index out of bounds: the len is " ++ size.repr ++ " but the index is " ++ index.repr
  | endless => "the references between nodes form a cycle"
  | tooDeep => "capacity overflow"

/-- Why a query about a document has no answer. -/
inductive QueryError where
  /-- The document has no such line. -/
  | outOfBounds (line lineCount : Nat)
  /-- There is no outline to ask yet. -/
  | notParsed
  /-- There is nothing to describe: a path of enclosing blocks always has the root. -/
  | emptyContext
  /-- The outline's references are broken. -/
  | fault (cause : Fault)
  deriving DecidableEq, Repr

def QueryError.message : QueryError → String
  | outOfBounds line lineCount =>
    "line " ++ line.repr ++ " is out of bounds for a document of " ++ lineCount.repr ++ " lines"
  | notParsed => "no parse tree available, call parse() first"
  | emptyContext => "cannot create context string for empty context"
  | fault cause => cause.message

end Offside
