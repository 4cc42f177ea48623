/-!
# Lines of a text

A line ends at a line feed; one carriage return directly before that line feed belongs to the line
end. Text after the last line feed is a line of its own if there is any, and it keeps a final
carriage return. No other character ends a line.
-/

namespace Offside.Text

/-- Puts a character in front of the first line; with no line yet, it becomes one. -/
def consFirst (c : Char) : List (List Char) → List (List Char)
  | [] => [[c]]
  | line :: rest => (c :: line) :: rest

/-- The lines of a text, without their line ends. -/
def lines : List Char → List (List Char)
  | [] => []
  | '\n' :: rest => [] :: lines rest
  | '\r' :: '\n' :: rest => [] :: lines rest
  | c :: rest => consFirst c (lines rest)

example : lines "a\r\n\r\nb\r".toList = ["a".toList, [], "b\r".toList] := by decide

end Offside.Text
