/-!
# Sets of characters given by code-point ranges

A character property taken from a standard is a table of inclusive ranges in ascending order.
`CodeRanges.has` decides membership. The search stops at the first range that starts above the code
it looks for, so a table answers at once for the characters at its low end.

The answer is the property only for a table in ascending order. `CodeRanges.Ascending` states that
order, and each table of the library is in it.
-/

namespace Offside.Text

/-- Inclusive ranges of code points, lowest first. -/
abbrev CodeRanges := List (Nat × Nat)

namespace CodeRanges

/-- Whether a code point lies in one of the ranges. -/
def has : CodeRanges → Nat → Bool
  | [], _ => false
  | (first, last) :: rest, code =>
    if code < first then false else if code ≤ last then true else has rest code

/-- Each range is non-empty and ends below the next one's first code point. -/
def Ascending : CodeRanges → Prop
  | [] => True
  | [(first, last)] => first ≤ last
  | (first, last) :: (next, stop) :: rest =>
    first ≤ last ∧ last < next ∧ Ascending ((next, stop) :: rest)

/-- The order of a table can be checked. -/
instance decidableAscending : (ranges : CodeRanges) → Decidable ranges.Ascending
  | [] => isTrue trivial
  | [(first, last)] => inferInstanceAs (Decidable (first ≤ last))
  | (first, last) :: (next, stop) :: rest =>
    have := decidableAscending ((next, stop) :: rest)
    inferInstanceAs (Decidable (first ≤ last ∧ last < next ∧ Ascending ((next, stop) :: rest)))

end CodeRanges

end Offside.Text
