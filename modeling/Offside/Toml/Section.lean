import Offside.Entry
import Offside.Toml.Scalar

/-!
# Tables under construction

A TOML text may define one table in several places, and it may not define anything twice. So a table
under construction remembers how it came to be, which decides what may still be added to it.

* A table with a header of its own, `[a]`, takes no second header and no dotted key from outside.
* A table that only occurs on the way to another one, as `a` in `[a.b]`, may get its header later.
* A table made by a dotted key, `a.b = 1`, takes further dotted keys and headers below it.
* An array of tables takes further elements, and what is below its name goes to the last one.
* A value is complete, be it an array or an inline table.

The entries of a table keep the order in which they came, where a table that gets its header late
counts from its header on.
-/

namespace Offside.Toml

/-- How a table came to be. -/
inductive Origin where
  /-- By a header of its own, or as an element of an array of tables. -/
  | header
  /-- On the way to another table's header. -/
  | implied
  /-- By a dotted key. -/
  | dotted
  deriving DecidableEq, Repr

/-- An entry of a table under construction. -/
inductive Section where
  | value (value : Value)
  | table (origin : Origin) (entries : List (String × Section))
  /-- An array of tables: its earlier elements, and the last one's entries. -/
  | tables (earlier : List (List (String × Section))) (last : List (String × Section))
  deriving Inhabited

/-- The entries of a table under construction. -/
abbrev Entries := List (String × Section)

namespace Section

mutual

def toValue : Section → Value
  | value complete => complete
  | table _ entries => .table (entriesToValues entries)
  | tables earlier last => .array (elementsToValues earlier ++ [.table (entriesToValues last)])

def entriesToValues : List (String × Section) → List (String × Value)
  | [] => []
  | (key, entry) :: rest => (key, entry.toValue) :: entriesToValues rest

/-- The values that the elements of an array of tables amount to. -/
def elementsToValues : List (List (String × Section)) → List Value
  | [] => []
  | entries :: rest => .table (entriesToValues entries) :: elementsToValues rest

end

end Section

namespace Entries

/-- Puts a value under the last part of a dotted key. The tables on the way are those that dotted keys
made, or new ones. -/
def insert (entries : Entries) : List String → Value → Option Entries
  | [], _ => none
  | [key], value =>
    if (entries.lookup key).isSome then none else some (entries ++ [(key, .value value)])
  | key :: next :: rest, value =>
    match entries.lookup key with
    | none => do
      let made ← insert [] (next :: rest) value
      return entries ++ [(key, .table .dotted made)]
    | some (.table .header _) | some (.value _) => none
    | some (.table found below) =>
      if found ≠ .dotted ∧ rest = [] then none
      else do
        let changed ← insert below (next :: rest) value
        return putEntry key (.table found changed) entries
    | some (.tables earlier last) =>
      if rest = [] then none
      else do
        let changed ← insert last (next :: rest) value
        return putEntry key (.tables earlier changed) entries

/-- Changes the table at a path. Tables on the way that are not there yet are made. -/
def modify (change : Entries → Option Entries) (entries : Entries) : List String → Option Entries
  | [] => change entries
  | key :: rest =>
    match entries.lookup key with
    | none => do return entries ++ [(key, .table .implied (← modify change [] rest))]
    | some (.value _) => none
    | some (.table origin below) => do
      return putEntry key (.table origin (← modify change below rest)) entries
    | some (.tables earlier last) => do
      return putEntry key (.tables earlier (← modify change last rest)) entries

/-- Gives a table its header. A table that had none until now moves behind the other entries. -/
def openTable (key : String) (entries : Entries) : Option Entries :=
  match entries.lookup key with
  | none => some (entries ++ [(key, .table .header [])])
  | some (.table .implied below) => some (dropEntry key entries ++ [(key, .table .header below)])
  | some _ => none

def openElement (key : String) (entries : Entries) : Option Entries :=
  match entries.lookup key with
  | none => some (entries ++ [(key, .tables [] [])])
  | some (.tables earlier last) => some (putEntry key (.tables (earlier ++ [last]) []) entries)
  | some _ => none

end Entries

end Offside.Toml
