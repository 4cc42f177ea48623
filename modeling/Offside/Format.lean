import Offside.Json.Codec
import Offside.Json.Read
import Offside.Json.Render
import Offside.Outline.Listing
import Offside.Yaml.Outline

/-!
# Formats

The formats in which outlines and tokens are written, and the names by which users choose them. Names
are case-sensitive. What is written as JSON can be read again.
-/

namespace Offside

/-- A name that no format has. -/
structure UnknownFormat where
  name : String
  deriving DecidableEq, Repr

def UnknownFormat.message (error : UnknownFormat) : String := "unknown format '" ++ error.name ++ "'"

/-- The formats for outlines. -/
inductive OutlineFormat where
  | listing
  | json
  | yaml
  deriving DecidableEq, Repr

namespace OutlineFormat

def all : List OutlineFormat := [listing, json, yaml]

def name : OutlineFormat → String
  | listing => "treeviz"
  | json => "json"
  | yaml => "yaml"

def ofName (name : String) : Except UnknownFormat OutlineFormat :=
  match all.find? (·.name == name) with
  | some format => .ok format
  | none => .error ⟨name⟩

end OutlineFormat

/-- The formats for tokens. -/
inductive TokenFormat where
  | simple
  | json
  deriving DecidableEq, Repr

namespace TokenFormat

def all : List TokenFormat := [simple, json]

def name : TokenFormat → String
  | simple => "simple"
  | json => "json"

def ofName (name : String) : Except UnknownFormat TokenFormat :=
  match all.find? (·.name == name) with
  | some format => .ok format
  | none => .error ⟨name⟩

end TokenFormat

def Outline.format (outline : Outline) : OutlineFormat → Except Fault String
  | .listing => outline.listing
  | .json => .ok outline.toJson.render
  | .yaml => .ok outline.toYaml

/-- Tokens in a format; the simple one has a line for each. -/
def formatTokens (tokens : List Token) : TokenFormat → String
  | .simple => "\n".intercalate (tokens.map Token.display)
  | .json => (Json.arr (tokens.map Token.toJson)).render

/-- The outline that a JSON text holds. -/
def Outline.ofJsonText? (text : String) : Option Outline := do ofJson? (← Json.read? text.toList)

/-- The tokens that a JSON text holds. -/
def tokensOfJsonText? (text : String) : Option (List Token) := do
  Json.list? Token.ofJson? (← Json.read? text.toList)

end Offside
