import Offside.Document
import Offside.Outline.Basic

/-!
# Building an outline

An outline is built from a document's tokens in one pass. `Growth` is what the pass knows: the table
so far, the depth that the structural tokens have reached, and the blocks still open, innermost
first, each with the depth at which it was opened. A line's token first closes every open block that
is not shallower than it (`Growth.closeDown`), then becomes a child of the innermost block left, or
of the root. What is open at the end of the document covers the rest of it.

The pass accepts every sequence of tokens. A dedent with nothing to lose is ignored, and nothing
after the first `EOF` counts.
-/

namespace Offside

/-- A block that later lines may still belong to: its place in the table, and the depth at which it
was opened. -/
structure OpenBlock where
  id : Nat
  depth : Nat
  deriving DecidableEq, Repr

/-- A half-built outline. -/
structure Growth where
  outline : Outline
  depth : Nat
  opened : List OpenBlock
  deriving DecidableEq, Repr

namespace Outline

/-- Ends a node's range at a line, after its first line at least. -/
def close (outline : Outline) (id stop : Nat) : Outline :=
  { outline with
    nodes := outline.nodes.modify id fun node =>
      { node with lines := { node.lines with stop := max stop (node.lines.start + 1) } } }

/-- Adds a node for a token as the last child of a parent, one level below it. Its range is the
token's line. -/
def pushChild (outline : Outline) (parent : Nat) (label : NodeLabel) (token : Token) : Outline :=
  let id := outline.size
  let depth := (outline.nodes[parent]?.map Node.depth).getD 0 + 1
  let node : Node := ⟨id, label, some token, [], some parent, depth, ⟨token.line, token.line + 1⟩⟩
  { outline with
    nodes := (outline.nodes.modify parent fun node =>
      { node with children := node.children ++ [id] }).push node }

end Outline

namespace Growth

def start (lineCount : Nat) : Growth := ⟨.blank lineCount, 0, []⟩

/-- Ends the range of each of some blocks at a line. -/
def closeAll (outline : Outline) (blocks : List OpenBlock) (stop : Nat) : Outline :=
  blocks.foldl (fun outline block => outline.close block.id stop) outline

/-- Closes at a line every open block that is not shallower than the depth reached. -/
def closeDown (growth : Growth) (line : Nat) : Growth :=
  let ended := growth.opened.takeWhile (growth.depth ≤ ·.depth)
  { growth with
    outline := closeAll growth.outline ended line
    opened := growth.opened.dropWhile (growth.depth ≤ ·.depth) }

/-- The place of the innermost open block, or of the root. -/
def innermost (growth : Growth) : Nat := (growth.opened.head?.map OpenBlock.id).getD 0

/-- Adds a node for a token below the innermost open block. -/
def push (growth : Growth) (label : NodeLabel) (token : Token) : Growth :=
  { growth with outline := growth.outline.pushChild growth.innermost label token }

/-- Adds the node of a line's token. A token that opens a block opens its node. -/
def line (growth : Growth) (token : Token) : Growth :=
  let growth := growth.closeDown token.line
  if token.symbol.opensBlock then
    { growth.push .block token with
      opened := ⟨growth.outline.size, growth.depth⟩ :: growth.opened }
  else growth.push .statement token

def step (growth : Growth) (token : Token) : Growth :=
  match token.symbol with
  | .indent => { growth with depth := growth.depth + 1 }
  | .dedent => { growth with depth := growth.depth - 1 }
  | .empty | .eof => growth
  | .block _ | .statement => growth.line token

/-- The outline, once no token is left: the blocks still open end with the document. -/
def finish (growth : Growth) : Outline :=
  closeAll growth.outline growth.opened growth.outline.lineCount

end Growth

namespace Outline

/-- The outline that a sequence of tokens describes, in a document of so many lines. -/
def ofTokens (tokens : List Token) (lineCount : Nat) : Outline :=
  ((tokens.takeWhile (·.symbol ≠ .eof)).foldl Growth.step (.start lineCount)).finish

def ofText (tabs : Tabs) (text : List Char) : Outline :=
  ofTokens (tokens tabs text) (Offside.lineCount text)

end Outline

end Offside
