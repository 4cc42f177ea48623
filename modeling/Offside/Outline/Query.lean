import Offside.Outline.Basic

/-!
# Asking an outline

The questions that an outline answers: which blocks enclose a line, and which nodes there are in the
order of the source.

Both follow references from node to node, and a table read from a file may hold references that form
a cycle. A path without a cycle visits each node once at most, so a walk that is deeper than the
table is long has met a cycle; the walks below count their depth against that bound and report
`Fault.endless` when they pass it.
-/

namespace Offside

namespace Outline

/-- The first of some nodes, given by their places, that has a property. Nodes behind it are not looked
at. -/
def findNode (outline : Outline) (p : Node → Bool) : List Nat → Except Fault (Option Node)
  | [] => .ok none
  | id :: rest => do
    let node ← outline.node id
    if p node then return some node else outline.findNode p rest

/-- The block below a node that a line is in, if there is one. The node's children are looked up by
its `id`. -/
def blockBelow (outline : Outline) (line : Nat) (node : Node) : Except Fault (Option Node) := do
  outline.findNode (fun child => child.isBlock && child.lines.contains line)
    (← outline.node node.id).children

/-- The blocks below a node that a line is in, outermost first, in at most `bound` steps. -/
def descend (outline : Outline) (line : Nat) : Nat → Node → Except Fault (List Node)
  | 0, _ => .error .endless
  | bound + 1, node => do
    match ← outline.blockBelow line node with
    | none => return []
    | some child => return child :: (← outline.descend line bound child)

/-- The blocks that a line is in, innermost first, and then the root. A statement encloses nothing,
so its line has the block it stands in. -/
def enclosing (outline : Outline) (line : Nat) : Except QueryError (List Node) :=
  if outline.lineCount ≤ line then .error (.outOfBounds line outline.lineCount)
  else Except.mapError .fault do
    let root ← outline.root
    return (← outline.descend line (outline.size + 1) root).reverse ++ [root]

/-- The innermost block that a line is in, or the root. -/
def innermost (outline : Outline) (line : Nat) : Except QueryError Node := do
  match ← outline.enclosing line with
  | [] => .error .emptyContext
  | node :: _ => .ok node

/-- A node and everything below it, each node before the nodes below it, at most `bound` levels
deep. -/
def walkFrom (outline : Outline) : Nat → Nat → Except Fault (List Node)
  | 0, _ => .error .endless
  | bound + 1, id => do
    let node ← outline.node id
    let below ← node.children.mapM (outline.walkFrom bound)
    return node :: below.flatten

/-- The root and everything below it, in the order of the source. -/
def walk (outline : Outline) : Except Fault (List Node) := outline.walkFrom (outline.size + 1) 0

end Outline

end Offside
