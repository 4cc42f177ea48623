import Offside.Config.Layers
import Offside.Line.Indentation
import Offside.Tabs

/-!
# Configuration

What a user can configure, and how each part of it is read from a setting. Some settings may be
written in more than one way: a tab size is a number or any text, and a text that is no positive
number stands for the default width; truth values and numbers may be written as text or as each
other; a method is a name, or a table with that name as its only key.

Settings belong to groups. A group is a table with a setting under each name, or a list of the
settings in their order, and what else there is in it does not count.
-/

namespace Offside

open Offside.Text

/-- A tab size as a user writes it. -/
inductive TabSize where
  | number (value : Int)
  | text (value : String)
  deriving DecidableEq, Repr

namespace TabSize

/-- The width that a tab size stands for: the number if it is positive, and else the default. -/
def width : TabSize → Nat
  | number value => if 0 < value then value.toNat else defaultWidth
  | text value => ((readUnsigned (trim value.toList)).filter (0 < ·)).getD defaultWidth

/-- A width is never zero. -/
theorem width_pos (size : TabSize) : 0 < size.width := by
  cases size with
  | number value => simp only [width, defaultWidth]; split <;> omega
  | text value =>
    simp only [width]
    cases h : (readUnsigned (trim value.toList)).filter (0 < ·) with
    | none => simp [defaultWidth]
    | some n => simpa using (Option.filter_eq_some_iff.mp h).2

end TabSize

/-- A configuration. -/
structure Config where
  tabSize : TabSize
  hardTabs : Bool
  /-- How many words are shown on each side of the one at the cursor. -/
  contextWindow : Nat
  /-- How leading blanks are counted. -/
  countMethod : CountMethod
  deriving DecidableEq, Repr

def Config.tabs (config : Config) : Tabs := .ofWidth config.tabSize.width config.hardTabs

/-- Why there is no configuration. -/
inductive ConfigError where
  | missingFile (name : String)
  | badDocument
  | badKey (key : String)
  | missing (key : String)
  | wrongType (key : String)
  /-- A list would get too long to be stored. -/
  | tooLong
  deriving DecidableEq, Repr

def ConfigError.message (error : ConfigError) : String :=
  "configuration error: " ++ match error with
    | missingFile name => "configuration file \"" ++ name ++ "\" not found"
    | badDocument => "the configuration file is not valid"
    | badKey key => "invalid key \"" ++ key ++ "\""
    | missing key => "missing setting \"" ++ key ++ "\""
    | wrongType key => "invalid value for setting \"" ++ key ++ "\""
    | tooLong => "a list is too long"

namespace CountMethod

/-- The name of a method in settings and on the command line. -/
def name : CountMethod → String
  | index => "index"
  | arithmetic => "arithmetic"

def all : List CountMethod := [index, arithmetic]

def ofName? (name : String) : Option CountMethod := all.find? (·.name == name)

end CountMethod

namespace Setting

def trueWords : List String := ["true", "on", "yes"]

def falseWords : List String := ["false", "off", "no"]

def toTabSize? : Setting → Option TabSize
  | int value => some (.number value)
  | text value => some (.text value)
  | _ => none

/-- A truth value; numbers other than zero are true. -/
def toBool? : Setting → Option Bool
  | bool value => some value
  | int value => some (value ≠ 0)
  | real value => some (value.isNonzero)
  | text value =>
    let word := Config.lower value
    if word = "1" ∨ word ∈ trueWords then some true
    else if word = "0" ∨ word ∈ falseWords then some false
    else none
  | _ => none

/-- An unsigned number; true counts as one and false as zero. -/
def toUnsigned? : Setting → Option Nat
  | bool value => some value.toNat
  | int value => if 0 ≤ value then some value.toNat else none
  | real value => some value.nearestUnsigned
  | text value =>
    let word := Config.lower value
    if word ∈ trueWords then some 1
    else if word ∈ falseWords then some 0
    else readUnsigned value.toList
  | _ => none

/-- A method to count leading blanks, in any case. -/
def toCountMethod? : Setting → Option CountMethod
  | text value => CountMethod.ofName? (Config.lower value)
  | table [(key, _)] => CountMethod.ofName? (Config.lower key)
  | _ => none

end Setting

namespace Config

/-- A group of settings. -/
structure Group where
  name : String
  /-- The names of its settings, in the order that a list has. -/
  settings : List String
  deriving DecidableEq, Repr

namespace Group

def tabs : Group := ⟨"tabs", ["size", "hard"]⟩

def reader : Group := ⟨"reader", ["context_window", "leading_spaces"]⟩

/-- The setting with a name in what stands for a group. -/
def setting? (group : Group) (name : String) : Setting → Option Setting
  | .table entries => entries.lookup name
  | .list items => items[group.settings.idxOf name]?
  | _ => none

/-- What `read` makes of the setting with a name. -/
def read (group : Group) (name : String) (read? : Setting → Option α) (table : Table) :
    Except ConfigError α :=
  match (table.lookup group.name).bind (group.setting? name) with
  | none => .error (.missing (group.name ++ "." ++ name))
  | some value =>
    match read? value with
    | none => .error (.wrongType (group.name ++ "." ++ name))
    | some result => .ok result

end Group

/-- Reads a configuration from settings. Settings that it does not have are ignored. -/
def ofTable (table : Table) : Except ConfigError Config := do
  return ⟨← Group.tabs.read "size" Setting.toTabSize? table,
    ← Group.tabs.read "hard" Setting.toBool? table,
    ← Group.reader.read "context_window" Setting.toUnsigned? table,
    ← Group.reader.read "leading_spaces" Setting.toCountMethod? table⟩

end Config

end Offside
