import Offside.Config.Basic
import Offside.Json.Codec

/-!
# Tab sizes and conventions as JSON

A tab size is stored the way a user wrote it: a number as a number, and a text as a string. Numbers
are signed ones (`Offside.Number.Word`). A convention is stored as what a tab size amounts to, so its
width is an unsigned number.
-/

namespace Offside

open Json (required? unsigned? bool?)

namespace TabSize

def ofJson? : Json → Option TabSize
  | .int value => (signed? value).map number
  | .str value => some (text value)
  | _ => none

end TabSize

namespace Tabs

def toJson (tabs : Tabs) : Json := .obj [("size", .nat tabs.width), ("hard", .bool tabs.hard)]

/-- Reads a convention; width zero stands for the default width. -/
def ofJson? (value : Json) : Option Tabs := do
  let value := value.record ["size", "hard"]
  return ofWidth (← required? unsigned? "size" value) (← required? bool? "hard" value)

end Tabs

end Offside
