import Offside.Outline.Basic
import Offside.Yaml.Scalar

/-!
# Outlines as YAML

An outline in block style: each member on a line of its own, the members of a member two spaces
further in, the items of a list in the same column as the list's key. An empty list is written in
brackets. The order of members is the order of the fields of the types.
-/

namespace Offside

def yamlNumber (key : String) (n : Nat) : String := key ++ ": " ++ n.repr

def yamlIndent (lines : List String) : List String := lines.map ("  " ++ ·)

def yamlItem : List String → List String
  | [] => []
  | first :: rest => ("- " ++ first) :: yamlIndent rest

/-- A list under a key, given the lines of each item. -/
def yamlList (key : String) : List (List String) → List String
  | [] => [key ++ ": []"]
  | items => (key ++ ":") :: items.flatMap yamlItem

namespace Token

/-- The indentation of the further lines of a string in a token: the token is in a node, the node in a
list, and the string two spaces further in than its key. -/
def yamlTextIndent : Nat := 6

def yamlLines (token : Token) : List String :=
  ["symbol: " ++ token.symbol.code] ++
    (token.attr.map fun attr =>
      "attr: " ++ String.ofList (Yaml.scalar yamlTextIndent attr.toList)).toList ++
    [yamlNumber "line" token.line, yamlNumber "column" token.column]

end Token

namespace LineRange

def yamlLines (range : LineRange) : List String :=
  [yamlNumber "start" range.start, yamlNumber "end" range.stop]

end LineRange

namespace Node

def yamlLines (node : Node) : List String :=
  [yamlNumber "id" node.id, "label: " ++ node.label.name] ++
    (match node.token with
      | none => []
      | some token => "token:" :: yamlIndent token.yamlLines) ++
    yamlList "children" (node.children.map fun id => [id.repr]) ++
    (node.parent.map (yamlNumber "parent")).toList ++
    [yamlNumber "depth" node.depth, "lines:"] ++ yamlIndent node.lines.yamlLines

end Node

namespace Outline

def yamlLines (outline : Outline) : List String :=
  yamlList "nodes" (outline.nodes.toList.map Node.yamlLines) ++
    [yamlNumber "line_count" outline.lineCount]

def toYaml (outline : Outline) : String := String.join (outline.yamlLines.map (· ++ "\n"))

end Outline

end Offside
