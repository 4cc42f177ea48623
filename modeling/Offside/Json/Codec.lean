import Offside.Json.Value
import Offside.Outline.Basic
import Offside.Text.Unsigned

/-!
# Tokens and outlines as JSON

Each type of the library that is stored as JSON has a writer (`toJson`) and a reader (`ofJson?`). A
missing value is left out by the writer; the reader takes a member that is missing or null for one.
Every other member is required. Members that a type does not have are ignored, except in a range.
Numbers are unsigned, of at most 64 binary digits.

The readers accept two more forms. An object may be written as the list of all its members in their
order, and a name as an object that has it for its only key and holds null.
-/

namespace Offside

namespace Json

def optional (key : String) (value : Option Json) : List (String × Json) :=
  match value with
  | none => []
  | some value => [(key, value)]

def unsigned? : Json → Option Nat
  | int value => if 0 ≤ value ∧ value ≤ maxUnsigned then some value.toNat else none
  | _ => none

def bool? : Json → Option Bool
  | bool value => some value
  | _ => none

def str? : Json → Option String
  | str value => some value
  | _ => none

/-- A name. It is a string or the only key of an object that holds null. -/
def name? : Json → Option String
  | str name => some name
  | obj members =>
    match members.reverse with
    | (name, null) :: others => if others.all (·.1 == name) then some name else none
    | _ => none
  | _ => none

/-- A list of as many items as there are keys counts as the object with these members. -/
def record (keys : List String) : Json → Json
  | arr items => if items.length = keys.length then obj (keys.zip items) else arr items
  | value => value

/-- An object is a record already. -/
@[simp] theorem record_obj (keys : List String) (members : List (String × Json)) :
    record keys (obj members) = obj members := rfl

/-- A value that has no members but those of some keys. -/
def closed? (keys : List String) : Json → Option Json
  | obj members => if members.all (keys.contains ·.1) then some (obj members) else none
  | value => some value

/-- A list, each item of it read by `read`. -/
def list? {α : Type} (read : Json → Option α) : Json → Option (List α)
  | arr items => items.mapM read
  | _ => none

def nullable? {α : Type} (read : Json → Option α) : Json → Option (Option α)
  | null => some none
  | value => (read value).map some

/-- A required member, read by `read`. -/
def required? {α : Type} (read : Json → Option α) (key : String) (value : Json) : Option α := do
  read (← value.member? key)

/-- A member that may be missing or null, read by `read`. -/
def missing? {α : Type} (read : Json → Option α) (key : String) (value : Json) : Option (Option α) :=
  match value.member? key with
  | none => some none
  | some value => nullable? read value

end Json

open Json (required? missing? unsigned? str? name? list?)

namespace Symbol

def toJson (symbol : Symbol) : Json := .str symbol.code

def ofJson? (value : Json) : Option Symbol := do ofCode? (← name? value)

end Symbol

namespace Token

def toJson (token : Token) : Json :=
  .obj ([("symbol", token.symbol.toJson)] ++ Json.optional "attr" (token.attr.map .str) ++
    [("line", .nat token.line), ("column", .nat token.column)])

def ofJson? (value : Json) : Option Token := do
  let value := value.record ["symbol", "attr", "line", "column"]
  return ⟨← required? Symbol.ofJson? "symbol" value, ← missing? str? "attr" value,
    ← required? unsigned? "line" value, ← required? unsigned? "column" value⟩

end Token

namespace NodeLabel

def toJson (label : NodeLabel) : Json := .str label.name

def ofJson? (value : Json) : Option NodeLabel := do ofName? (← name? value)

end NodeLabel

namespace LineRange

def toJson (range : LineRange) : Json :=
  .obj [("start", .nat range.start), ("end", .nat range.stop)]

/-- Reads a range, which has no other members. -/
def ofJson? (value : Json) : Option LineRange := do
  let value ← (value.record ["start", "end"]).closed? ["start", "end"]
  return ⟨← required? unsigned? "start" value, ← required? unsigned? "end" value⟩

end LineRange

namespace Node

def toJson (node : Node) : Json :=
  .obj ([("id", .nat node.id), ("label", node.label.toJson)] ++
    Json.optional "token" (node.token.map Token.toJson) ++
    [("children", .arr (node.children.map .nat))] ++
    Json.optional "parent" (node.parent.map .nat) ++
    [("depth", .nat node.depth), ("lines", node.lines.toJson)])

def ofJson? (value : Json) : Option Node := do
  let value := value.record ["id", "label", "token", "children", "parent", "depth", "lines"]
  return ⟨← required? unsigned? "id" value, ← required? NodeLabel.ofJson? "label" value,
    ← missing? Token.ofJson? "token" value, ← required? (list? unsigned?) "children" value,
    ← missing? unsigned? "parent" value, ← required? unsigned? "depth" value,
    ← required? LineRange.ofJson? "lines" value⟩

end Node

namespace Outline

def toJson (outline : Outline) : Json :=
  .obj [("nodes", .arr (outline.nodes.toList.map Node.toJson)),
    ("line_count", .nat outline.lineCount)]

/-- Reads an outline. Its references need not make sense. -/
def ofJson? (value : Json) : Option Outline := do
  let value := value.record ["nodes", "line_count"]
  return ⟨(← required? (list? Node.ofJson?) "nodes" value).toArray,
    ← required? unsigned? "line_count" value⟩

end Outline

end Offside
