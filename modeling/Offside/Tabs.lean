import Offside.Text.Blank
import Offside.Text.Unsigned

/-!
# The indentation convention of a document

How many units of indentation some leading blanks are worth. Under hard tabs every blank character is
one unit. Under soft tabs a unit has a fixed width, and a part of a unit counts as a whole one, so a
line that is indented less than a unit still stands deeper than one that is not indented.

A host may store the width as any text; whatever is not a positive number stands for the default
width. `Tabs.ofWidth` and everything built on it never give width zero. A value written out directly
may have it, and such a value measures like the default width.
-/

namespace Offside

open Offside.Text

def defaultWidth : Nat := 4

/-- An indentation convention: the width of a unit, and whether every blank is a unit of its own. -/
structure Tabs where
  width : Nat
  hard : Bool
  deriving DecidableEq, Repr

namespace Tabs

/-- The convention with this width, zero standing for the default width. -/
def ofWidth (width : Nat) (hard : Bool) : Tabs := ⟨if width = 0 then defaultWidth else width, hard⟩

def soft (width : Nat) : Tabs := ofWidth width false

/-- Hard tabs; the width is for display only. -/
def hardTabs (width : Nat) : Tabs := ofWidth width true

/-- The convention of a document about which nothing is known. -/
def default : Tabs := soft defaultWidth

instance : Inhabited Tabs := ⟨default⟩

/-- The convention in a host's settings: a tab size as text, if there is one, and whether the tab key
inserts spaces. -/
def ofSetting (size : Option (List Char)) (insertSpaces : Bool) : Tabs :=
  ofWidth ((size.bind fun text => readUnsigned (trim text)).getD defaultWidth) (!insertSpaces)

def effectiveWidth (tabs : Tabs) : Nat := if tabs.width = 0 then defaultWidth else tabs.width

/-- The units of indentation that a number of leading blanks is worth. -/
def units (tabs : Tabs) (blanks : Nat) : Nat :=
  if tabs.hard then blanks else (blanks + (tabs.effectiveWidth - 1)) / tabs.effectiveWidth

/-- A convention with a width has one to measure with. -/
theorem ofWidth_width_pos (width : Nat) (hard : Bool) : 0 < (ofWidth width hard).width := by
  unfold ofWidth defaultWidth
  split
  · exact Nat.succ_pos 3
  · exact Nat.pos_of_ne_zero ‹_›

end Tabs

end Offside
