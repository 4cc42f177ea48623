import Offside.Toml.Document

/-!
# Settings

The values that a configuration is made of, before anything is known about what they are for. They
are those of a TOML document but for dates, which are kept as text, and an item of a list that
nothing was put into.

A document may give a date in two ways: as a value, and as a table whose first key says that it holds
the text of a date. What else such a table holds does not count.
-/

namespace Offside

/-- A value in a configuration. -/
inductive Setting where
  | unset
  | bool (value : Bool)
  | int (value : Int)
  | real (value : RealNumber)
  | text (value : String)
  | list (items : List Setting)
  | table (entries : List (String × Setting))
  deriving Inhabited

namespace Setting

def dateKey : String := "$__toml_private_datetime"

/-- The text of the date that a table with such a key in front stands for. -/
def date? : List (String × Toml.Value) → Option Setting
  | (_, .text date) :: _ =>
    (Toml.date? date.toList).map fun date => text (String.ofList date)
  | _ => none

mutual

/-- The setting that a value of a document stands for. -/
def ofValue? : Toml.Value → Option Setting
  | .bool value => some (bool value)
  | .int value => some (int value)
  | .real value => some (real value)
  | .text value => some (text value)
  | .date value => some (text value)
  | .array items => (ofValues? items).map list
  | .table entries =>
    if entries.head?.any (·.1 == dateKey) then date? entries else (ofEntries? entries).map table

def ofValues? : List Toml.Value → Option (List Setting)
  | [] => some []
  | value :: rest => do return (← ofValue? value) :: (← ofValues? rest)

/-- The settings that the entries of a table stand for. -/
def ofEntries? : List (String × Toml.Value) → Option (List (String × Setting))
  | [] => some []
  | (key, value) :: rest => do return (key, ← ofValue? value) :: (← ofEntries? rest)

end

/-- The entries of a table; any other setting has none. -/
def entries : Setting → List (String × Setting)
  | table entries => entries
  | _ => []

/-- The items of a list; any other setting has none. -/
def items : Setting → List Setting
  | list items => items
  | _ => []

def ofDocument? (text : List Char) : Option (List (String × Setting)) := do
  match ← ofValue? (.table (← Toml.read? text)) with
  | table entries => some entries
  | _ => none

end Setting

end Offside
