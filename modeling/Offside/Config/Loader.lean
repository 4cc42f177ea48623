import Offside.Config.Basic

/-!
# Loading a configuration

A configuration is put together from the built-in settings, any number of files in order, and
overrides, which go over all files wherever they were given. A file that must be there and is not, and
a file that is no TOML document are errors even if nothing would come of them. Values are read only
once all layers are in place, so a later layer can mend a bad value.
-/

namespace Offside

namespace Config

def defaults : Table :=
  [("tabs", .table [("size", .int defaultWidth), ("hard", .bool false)]),
   ("reader", .table [("context_window", .int 1), ("leading_spaces", .text "index")])]

/-- A part of what a configuration is put together from. -/
inductive Source where
  /-- A file, with its text if it is there. -/
  | file (name : String) (required : Bool) (text : Option (List Char))
  /-- An override. -/
  | override (place : Place) (value : Setting)

/-- An override by the text of its key, which must name a place. -/
def Source.ofKey (key : String) (value : Setting) : Except ConfigError Source :=
  match Place.ofText? key with
  | none => .error (.badKey key)
  | some place => .ok (.override place value)

def Source.ofGroup (group : Group) (name : String) (value : Setting) : Source :=
  .override ⟨group.name, [.entry name]⟩ value

/-- A table with another layer, unless a list gets too long. -/
def layer : Option Table → Except ConfigError Table
  | none => .error .tooLong
  | some table => .ok table

def layFile (table : Table) : Source → Except ConfigError Table
  | .file name required none => if required then .error (.missingFile name) else .ok table
  | .file _ _ (some text) =>
    match Setting.ofDocument? text with
    | none => .error .badDocument
    | some file => layer (putFile? table file)
  | .override .. => .ok table

def layOverride (table : Table) : Source → Except ConfigError Table
  | .file .. => .ok table
  | .override place value => layer (putAt? table place value)

def load (sources : List Source) : Except ConfigError Config := do
  let files ← sources.foldlM layFile defaults
  let table ← sources.foldlM layOverride files
  ofTable table

end Config

end Offside
