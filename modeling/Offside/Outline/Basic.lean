import Offside.Error
import Offside.Token

/-!
# Outlines

An outline is the block structure of a document: a table of nodes that refer to each other by their
place in the table. The first node is the root and stands for the whole document; every other node
comes from a line. Each node covers a range of lines: a block covers its first line and all lines up
to the next line that is not blank and not deeper than it, a statement covers its own line.

Nothing in the type forces the references of a table to make sense, for an outline may be read from a
file. So each query that follows a reference reports a missing node (`Fault.missingNode`), and a walk
along references that form a cycle reports that (`Fault.endless`). `Offside.Outline.Build` makes
outlines whose references are those of a tree.
-/

namespace Offside

/-- The lines from `start` up to and not including `stop`. -/
structure LineRange where
  start : Nat
  stop : Nat
  deriving DecidableEq, Repr

namespace LineRange

def contains (range : LineRange) (line : Nat) : Bool := range.start ≤ line && line < range.stop

def last? (range : LineRange) : Option Nat :=
  if range.start < range.stop then some (range.stop - 1) else none

/-- Whether every bound of a range lies within another one's bounds. -/
def within (range outer : LineRange) : Bool := outer.start ≤ range.start && range.stop ≤ outer.stop

end LineRange

/-- The kinds of node. -/
inductive NodeLabel where
  | root
  | block
  | statement
  deriving DecidableEq, Repr

namespace NodeLabel

/-- Every label, in the order in which they are listed to users. -/
def all : List NodeLabel := [root, block, statement]

/-- The name of a label in every report and format. -/
def name : NodeLabel → String
  | root => "root"
  | block => "block"
  | statement => "statement"

def ofName? (name : String) : Option NodeLabel := all.find? (·.name == name)

/-- A label is the one its name stands for. -/
theorem ofName?_name (label : NodeLabel) : ofName? label.name = some label := by
  cases label <;> decide +kernel

end NodeLabel

/-- A node of an outline. `id`, `children` and `parent` are places in the outline's table; the root
alone has no token and no parent. -/
structure Node where
  id : Nat
  label : NodeLabel
  token : Option Token
  children : List Nat
  parent : Option Nat
  depth : Nat
  lines : LineRange
  deriving DecidableEq, Repr

namespace Node

def isRoot (node : Node) : Bool := node.label = .root

def isBlock (node : Node) : Bool := node.label = .block

def startLine (node : Node) : Option Nat := node.token.map Token.line

def symbol? (node : Node) : Option Symbol := node.token.map Token.symbol

def attr? (node : Node) : Option String := node.token.bind Token.attr

end Node

/-- A table of nodes, and the number of lines of the document it outlines. -/
structure Outline where
  nodes : Array Node
  lineCount : Nat
  deriving DecidableEq, Repr

namespace Outline

/-- The outline of a document in which no line stands for anything. -/
def blank (lineCount : Nat) : Outline :=
  ⟨#[⟨0, .root, none, [], none, 0, ⟨0, lineCount⟩⟩], lineCount⟩

def size (outline : Outline) : Nat := outline.nodes.size

def node (outline : Outline) (id : Nat) : Except Fault Node :=
  match outline.nodes[id]? with
  | some node => .ok node
  | none => .error (.missingNode outline.size id)

def root (outline : Outline) : Except Fault Node := outline.node 0

/-- The parent of the node at a place, if it has one. -/
def parent (outline : Outline) (id : Nat) : Except Fault (Option Node) := do
  match (← outline.node id).parent with
  | none => return none
  | some parent => return some (← outline.node parent)

def children (outline : Outline) (id : Nat) : Except Fault (List Node) := do
  (← outline.node id).children.mapM outline.node

def isEmpty (outline : Outline) : Except Fault Bool := do
  return (← outline.root).children.isEmpty

end Outline

end Offside
