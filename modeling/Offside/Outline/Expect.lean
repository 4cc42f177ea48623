import Offside.Outline.Query
import Offside.Text.Quoted

/-!
# Stating what an outline looks like

A description of a node says what is expected of it and of chosen children. Comparing an outline with
a description gives the first expectation that does not hold, together with the place of the node it
was about.
-/

namespace Offside

/-- Something expected of a node. -/
inductive Expectation where
  | label (expected : NodeLabel)
  | symbol (expected : Symbol)
  | attr (expected : String)
  | noAttr
  | lines (expected : LineRange)
  | childCount (expected : Nat)
  /-- Everything expected of one of its children. -/
  | child (index : Nat) (expectations : List Expectation)

/-- What was expected and did not hold. -/
inductive MismatchCause where
  | label (expected found : NodeLabel)
  | symbol (expected : Symbol)
  | attr (expected : String)
  | hasAttr
  | lines
  | childCount
  | noChild (index count : Nat)
  deriving DecidableEq, Repr

/-- An expectation that does not hold. The place is the way down from the root, as the indices of the
children taken. -/
inductive Mismatch where
  | unmet (place : List Nat) (cause : MismatchCause)
  /-- A line that has to be in the document is not. -/
  | noLine (line lineCount : Nat)
  /-- A reference between the nodes is broken. -/
  | fault (cause : Fault)
  deriving DecidableEq, Repr

namespace MismatchCause

def message : MismatchCause → String
  | label expected found => "expected label " ++ expected.name ++ ", found " ++ found.name
  | symbol expected => "expected symbol " ++ expected.name
  | attr expected => "expected attr " ++ Text.quotedText expected
  | hasAttr => "expected no attr"
  | lines => "unexpected line range"
  | childCount => "unexpected child count"
  | noChild index count =>
    "child " ++ index.repr ++ " requested but only " ++ count.repr ++ " children"

end MismatchCause

namespace Mismatch

def placeName (place : List Nat) : String :=
  "root" ++ String.join (place.map fun index => ".children[" ++ index.repr ++ "]")

def message : Mismatch → String
  | unmet place cause => placeName place ++ ": " ++ cause.message
  | noLine line lineCount =>
    "line in range: OutOfBounds \x7b line: " ++ line.repr ++ ", line_count: " ++ lineCount.repr ++
      " \x7d"
  | fault cause => cause.message

end Mismatch

/-- Refuses with a mismatch at a place unless a condition holds. -/
def expect (condition : Bool) (place : List Nat) (cause : MismatchCause) : Except Mismatch Unit :=
  if condition then .ok () else .error (.unmet place cause)

mutual

/-- Compares the node at a place with one expectation. -/
def Outline.meet (outline : Outline) (place : List Nat) (node : Node) :
    Expectation → Except Mismatch Unit
  | .label expected => expect (node.label = expected) place (.label expected node.label)
  | .symbol expected => expect (node.symbol? = some expected) place (.symbol expected)
  | .attr expected => expect (node.attr? = some expected) place (.attr expected)
  | .noAttr => expect (node.attr? = none) place .hasAttr
  | .lines expected => expect (node.lines = expected) place .lines
  | .childCount expected => expect (node.children.length = expected) place .childCount
  | .child index expectations =>
    match node.children[index]? with
    | none => .error (.unmet place (.noChild index node.children.length))
    | some id =>
      match outline.node id with
      | .error cause => .error (.fault cause)
      | .ok child => outline.meetAll (place ++ [index]) child expectations

/-- Compares the node at a place with several expectations, in order. -/
def Outline.meetAll (outline : Outline) (place : List Nat) (node : Node) :
    List Expectation → Except Mismatch Unit
  | [] => .ok ()
  | expectation :: rest =>
    match outline.meet place node expectation with
    | .error mismatch => .error mismatch
    | .ok () => outline.meetAll place node rest

end

namespace Outline

/-- Compares the root with what is expected of it, and gives it back if all of that holds. -/
def expectRoot (outline : Outline) (expectations : List Expectation) : Except Mismatch Node := do
  let root ← Except.mapError .fault outline.root
  outline.meetAll [] root expectations
  return root

/-- The symbols of the nodes that enclose a line of the document, innermost first; a node without a
token has none. -/
def expectSymbols (outline : Outline) (line : Nat) : Except Mismatch (List (Option Symbol)) :=
  match outline.enclosing line with
  | .ok path => .ok (path.map Node.symbol?)
  | .error (.fault cause) => .error (.fault cause)
  | .error _ => .error (.noLine line outline.lineCount)

end Outline

end Offside
