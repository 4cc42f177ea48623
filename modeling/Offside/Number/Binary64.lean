/-!
# Decimals as binary floating-point numbers

A number that is written with a fraction or an exponent stands for the 64-bit binary floating-point
number nearest to it, an exact tie going to the one with an even significand. Three facts about that
number decide how the library treats the text: whether it is finite, whether it is zero, and which
integer it rounds to.

A decimal is a coefficient and a power of ten. All comparisons are exact, on natural numbers. The
power of ten is never computed where its size alone settles the answer, so a text with an enormous
exponent costs no more than its length.
-/

namespace Offside

/-- The number `coefficient * 10 ^ exponent`. -/
structure Decimal where
  coefficient : Nat
  exponent : Int
  deriving DecidableEq, Repr

namespace Decimal

def digitCount (d : Decimal) : Nat := (Nat.toDigits 10 d.coefficient).length

/-- The largest power of ten that the number can reach; the number is below `10 ^ magnitude`. -/
def magnitude (d : Decimal) : Int := d.exponent + d.digitCount

def quotient (d : Decimal) : Nat × Nat :=
  if 0 ≤ d.exponent then (d.coefficient * Nat.pow 10 d.exponent.toNat, 1)
  else (d.coefficient, Nat.pow 10 (-d.exponent).toNat)

/-- The least number that rounds to infinity: half a unit in the last place above the largest finite
one. -/
def overflow : Nat := Nat.pow 2 1024 - Nat.pow 2 970

/-- Whether the nearest floating-point number is finite. -/
def isFinite (d : Decimal) : Bool :=
  if d.coefficient = 0 then true
  else if 310 < d.magnitude then false
  else if d.magnitude < 0 then true
  else
    let (num, den) := d.quotient
    num < overflow * den

/-- Whether the nearest floating-point number is zero: the number is at most half of the smallest
positive one, `2 ^ (-1074)`. -/
def isZero (d : Decimal) : Bool :=
  if d.coefficient = 0 then true
  else if d.magnitude < -330 then true
  else if 0 < d.magnitude then false
  else
    let (num, den) := d.quotient
    num * Nat.pow 2 1075 ≤ den

/-- A quotient rounded to the nearest integer, a tie to the even one. -/
def roundTiesToEven (num den : Nat) : Nat :=
  let floor := num / den
  let twice := 2 * (num % den)
  if twice < den then floor else if den < twice then floor + 1 else floor + floor % 2

/-- The nearest floating-point number of a quotient from one half on, as an integer over
`2 ^ scale`. -/
def nearest (num den : Nat) : Nat × Nat :=
  let whole := num / den
  if whole < Nat.pow 2 53 then
    let bits := if whole = 0 then 0 else whole.log2 + 1
    let scale := 53 - bits
    (roundTiesToEven (num * Nat.pow 2 scale) den, scale)
  else
    let unit := Nat.pow 2 (whole.log2 - 52)
    (roundTiesToEven num (den * unit) * unit, 0)

/-- The integer nearest to the nearest floating-point number, a tie going to the greater one; none if
that number is infinite. -/
def round? (d : Decimal) : Option Nat :=
  if !d.isFinite then none
  else if d.magnitude < 0 then some 0
  else
    let (num, den) := d.quotient
    if 2 * num < den then
      -- below one half, where only numbers next to one half could round up to it
      let (half, scale) := nearest (num * 2) den
      some (if Nat.pow 2 scale ≤ half then 1 else 0)
    else
      let (value, scale) := nearest num den
      some ((2 * value + Nat.pow 2 scale) / Nat.pow 2 (scale + 1))

end Decimal

end Offside
