import Offside.Outline.Basic

/-!
# Checking an outline

`Outline.check` looks for the first rule that an outline breaks. It asks of the root that it is the
first node, that it has no token and no depth, and that it covers the document; of every other node
that it has a parent and a token, that it stands one level below its parent and that its range lies
in its parent's; and of neighbouring children that the earlier one's range has lines and that they
all come before the later one's first line.

Nodes are checked in the order of the table, and the parent and the children of a node are those of
the node that its `id` names. The check reads the references to parents and the lists of children
each on its own and does not compare them with each other.
-/

namespace Offside

/-- A rule that an outline breaks. -/
inductive Violation where
  | rootId
  | rootToken
  | rootDepth
  | rootLines
  | noParent
  | noToken (id : Nat)
  | depth (id : Nat)
  | escapes (id : Nat)
  | emptyRange
  | overlap (first second : Nat)
  /-- A reference that the check had to follow is broken. -/
  | fault (cause : Fault)
  deriving DecidableEq, Repr

namespace Violation

def nodeName (id : Nat) : String := "NodeId(" ++ id.repr ++ ")"

/-- The wording of a violation; the bare facts about the root go without words. -/
def message : Violation → String
  | rootId | rootDepth | rootLines => ""
  | rootToken => "root must not carry a token"
  | noParent => "non-root node without parent"
  | noToken id => "node " ++ nodeName id ++ " has no token"
  | depth id => "depth of " ++ nodeName id
  | escapes id => "node " ++ nodeName id ++ " escapes its parent"
  | emptyRange => "non-empty range"
  | overlap first second =>
    "siblings " ++ nodeName first ++ " and " ++ nodeName second ++ " overlap"
  | fault cause => cause.message

end Violation

/-- Refuses with a violation unless a condition holds. -/
def require (condition : Bool) (violation : Violation) : Except Violation Unit :=
  if condition then .ok () else .error violation

namespace Outline

def checkRoot (outline : Outline) : Except Violation Unit := do
  let root ← Except.mapError .fault outline.root
  require (root.id = 0) .rootId
  require root.token.isNone .rootToken
  require (root.depth = 0) .rootDepth
  require (root.lines = ⟨0, outline.lineCount⟩) .rootLines

def checkNode (outline : Outline) (node : Node) : Except Violation Unit := do
  match ← Except.mapError .fault (outline.parent node.id) with
  | none => .error .noParent
  | some parent =>
    require node.token.isSome (.noToken node.id)
    require (node.depth = parent.depth + 1) (.depth node.id)
    require (node.lines.within parent.lines) (.escapes node.id)

/-- Checks each node of a list against the one behind it. -/
def checkNeighbours : List Node → Except Violation Unit
  | first :: second :: rest => do
    match first.lines.last? with
    | none => .error .emptyRange
    | some last =>
      require (last < second.lines.start) (.overlap first.id second.id)
      checkNeighbours (second :: rest)
  | _ => .ok ()

/-- Checks the children of a node against each other. -/
def checkChildren (outline : Outline) (node : Node) : Except Violation Unit := do
  checkNeighbours (← Except.mapError .fault (outline.children node.id))

/-- Checks an outline and reports the first rule that it breaks. -/
def check (outline : Outline) : Except Violation Unit := do
  outline.checkRoot
  (outline.nodes.toList.drop 1).forM outline.checkNode
  outline.nodes.toList.forM outline.checkChildren

end Outline

end Offside
