import Offside.Line.Indentation

/-!
# One-line reports about a line

The sentences that tell a user about one line. Line numbers come in counted from zero and are shown
counted from one.
-/

namespace Offside.Report

open Offside.Text

def lineNumber (line : Nat) : String := "Line " ++ (line + 1).repr

def indentation (tabs : Tabs) (line : Nat) (text : List Char) : String :=
  if allBlank text then lineNumber line ++ " is Empty"
  else lineNumber line ++ ": " ++ (level tabs text).repr ++ " indents"

def leadingSpaces (method : CountMethod) (line : Nat) (text : List Char) : String :=
  if allBlank text then lineNumber line ++ " is empty"
  else
    let count := method.count text
    lineNumber line ++ ": " ++ count.repr ++ (if count = 1 then " space" else " spaces")

end Offside.Report
