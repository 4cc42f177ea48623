import Offside.Config.Place

/-!
# Layers of settings

Settings come in layers, and a later layer goes over an earlier one. Tables are merged key by key, at
every depth. Any other value takes the place of what is there, and a table with entries takes the
place of a value that is none; a table without entries changes nothing that is there. Keys are
compared without regard to case. What is put into a list takes the place of what is there, whatever it
is, and keeps its keys as they are.

The keys of overrides name places (`Offside.Config.Place`), and so do the outermost keys of a file
where they have that form. A list cannot grow without bounds, so there may be no such layer.
-/

namespace Offside.Config

def lower (word : String) : String := String.ofList (word.toList.map Char.toLower)

mutual

/-- Lays a value over what a table has under a key. -/
def put (table : Table) (key : String) : Setting → Table
  | .table [] =>
    if (table.lookup (lower key)).isSome then table else putEntry (lower key) (.table []) table
  | .table (entry :: rest) =>
    let below := ((table.lookup (lower key)).getD .unset).entries
    putEntry (lower key) (.table (putAll below (entry :: rest))) table
  | value => putEntry (lower key) value table

/-- Lays some entries over a table, one after the other. -/
def putAll (table : Table) : Table → Table
  | [] => table
  | (key, value) :: rest => putAll (put table key value) rest

end

/-! ## Lists -/

/-- The most items of a list: 96 bytes an item, and at most `maxSigned` bytes in all. -/
def maxItems : Nat := 96076792050570581

/-- The position in a list of some length that an index stands for; it may be behind the end. -/
def position? (length : Nat) : Int → Option Nat
  | .ofNat n => if n < maxItems then some n else none
  | .negSucc n => if n < length then some (length - (n + 1)) else none

/-- Puts a value at a position of a list, which grows as far as it must. -/
def setItem (items : List Setting) (position : Nat) (value : Setting) : List Setting :=
  (items ++ List.replicate (position + 1 - items.length) Setting.unset).set position value

/-- The value just put at a position is found there, and all other positions keep theirs. -/
theorem getElem?_setItem (items : List Setting) (position other : Nat) (value : Setting) :
    (setItem items position value)[other]?.getD .unset =
      if other = position then value else items[other]?.getD .unset := by
  unfold setItem
  generalize hpad : items ++ List.replicate (position + 1 - items.length) Setting.unset = padded
  have inside : position < padded.length := by
    rw [← hpad, List.length_append, List.length_replicate]
    omega
  by_cases h : other = position
  · subst h
    rw [List.getElem?_set_self inside, if_pos rfl, Option.getD_some]
  · rw [List.getElem?_set_ne (Ne.symm h), if_neg h, ← hpad]
    by_cases within : other < items.length
    · rw [List.getElem?_append_left within]
    · rw [List.getElem?_append_right (Nat.le_of_not_lt within), List.getElem?_replicate,
        List.getElem?_eq_none (Nat.le_of_not_lt within)]
      split <;> rfl

/-! ## Places -/

namespace PlaceStep

def get (here : Setting) : PlaceStep → Setting
  | entry word => (here.entries.lookup (lower word)).getD .unset
  | item index => ((position? here.items.length index).bind (here.items[·]?)).getD .unset

/-- Puts a value in the place of what stands one step on. -/
def replace? (here : Setting) (value : Setting) : PlaceStep → Option Setting
  | entry word => some (.table (putEntry (lower word) value here.entries))
  | item index =>
    (position? here.items.length index).map fun position =>
      .list (setItem here.items position value)

def lay? (here : Setting) (value : Setting) : PlaceStep → Option Setting
  | entry word => some (.table (put here.entries word value))
  | item index => replace? here value (item index)

end PlaceStep

def lay? (value : Setting) : Setting → PlaceStep → List PlaceStep → Option Setting
  | here, step, [] => step.lay? here value
  | here, step, next :: rest => do step.replace? here (← lay? value (step.get here) next rest)

/-- Lays a value over what stands at a place of a table. -/
def putAt? (table : Table) (place : Place) (value : Setting) : Option Table :=
  (lay? value (.table table) (.entry place.word) place.steps).map Setting.entries

/-- Lays the outermost entries of a file over a table. -/
def putFile? (table file : Table) : Option Table :=
  file.foldlM (fun table (key, value) =>
    putAt? table ((Place.ofText? key).getD ⟨key, []⟩) value) table

end Offside.Config
