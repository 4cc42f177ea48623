import Offside.Text.CodeRange

/-!
# Blank characters and trimming

Which characters count as blank, and the three ways of cutting them from the ends of a text. Blank
is the Unicode property `White_Space`: the control characters U+001C to U+001F, U+180E, U+200B and
U+FEFF are not in it, though some definitions of white space count them.
-/

namespace Offside.Text

/-- The characters with the Unicode property `White_Space`. -/
def blankRanges : CodeRanges :=
  [(0x09, 0x0D), (0x20, 0x20), (0x85, 0x85), (0xA0, 0xA0), (0x1680, 0x1680), (0x2000, 0x200A),
   (0x2028, 0x2029), (0x202F, 0x202F), (0x205F, 0x205F), (0x3000, 0x3000)]

theorem blankRanges_ascending : blankRanges.Ascending := by decide

def isBlank (c : Char) : Bool := blankRanges.has c.toNat

/-- Whether every character of a text is blank; the empty text is. -/
def allBlank (s : List Char) : Bool := s.all isBlank

def trimStart (s : List Char) : List Char := s.dropWhile isBlank

def trimEnd (s : List Char) : List Char := (s.reverse.dropWhile isBlank).reverse

def trim (s : List Char) : List Char := trimEnd (trimStart s)

/-- A blank character in front does not survive trimming. -/
theorem trimStart_cons_blank {c : Char} (h : isBlank c = true) (s : List Char) :
    trimStart (c :: s) = trimStart s := by
  simp [trimStart, h]

/-- A text that starts with a character that is not blank keeps its start. -/
theorem trimStart_cons {c : Char} (h : isBlank c = false) (s : List Char) :
    trimStart (c :: s) = c :: s := by
  simp [trimStart, h]

end Offside.Text
