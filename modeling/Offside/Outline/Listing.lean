import Offside.Outline.Query

/-!
# Listing an outline

One line for each node, in the order of the source: indentation by depth, a sign for the kind of
node, what it is, and the lines that it covers. Lines are counted from one and both ends are
included; a node that covers no line has empty brackets.

```text
⧉ root [1-3]
  § function f [1-3]
    ¶ statement [2]
    ¶ statement [3]
```
-/

namespace Offside

/-- The most characters of a node's words that a listing shows. -/
def maxWordsShown : Nat := 30

/-- A text with everything behind its first characters cut off and an ellipsis in its place. -/
def shorten (limit : Nat) (s : String) : String :=
  if limit < s.length then String.ofList (s.toList.take limit ++ ['…']) else s

def NodeLabel.sign : NodeLabel → String
  | root => "⧉"
  | block => "§"
  | statement => "¶"

/-- The words for a node: those for its token, or its label. -/
def Node.words (node : Node) : String := (node.token.map Token.describe).getD node.label.name

def LineRange.display (range : LineRange) : String :=
  match range.last? with
  | none => "[]"
  | some last =>
    if last = range.start then "[" ++ (last + 1).repr ++ "]"
    else "[" ++ (range.start + 1).repr ++ "-" ++ (last + 1).repr ++ "]"

def Node.listing (node : Node) : String :=
  String.ofList (List.replicate (2 * node.depth) ' ') ++ node.label.sign ++ " " ++
    shorten maxWordsShown node.words ++ " " ++ node.lines.display

/-- The depth from which on a node's indentation is longer than a text can be: at two characters a
level, at least `2 ^ 63` of them. -/
def maxListedDepth : Nat := Nat.pow 2 62

def Outline.listing (outline : Outline) : Except Fault String := do
  let nodes ← outline.walk
  if nodes.any (maxListedDepth ≤ ·.depth) then .error .tooDeep
  else return "\n".intercalate (nodes.map Node.listing)

end Offside
