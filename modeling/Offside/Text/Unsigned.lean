import Offside.Number.Word

/-!
# Unsigned numbers in text

How an unsigned number of at most 64 binary digits is read from a text: one optional plus sign, then
decimal digits and nothing else. There is no minus sign, not even before zero, and leading zeros are
allowed. Blanks are not skipped; a caller that allows them trims first.
-/

namespace Offside.Text

def dropPlus : List Char → List Char
  | '+' :: rest => rest
  | s => s

/-- Reads a run of decimal digits; at least one is needed. -/
def readDigits (s : List Char) : Option Nat :=
  if s.isEmpty || !s.all Char.isDigit then none else some (Nat.ofDigitChars 10 s 0)

/-- Reads an unsigned number no greater than `maxUnsigned`. -/
def readUnsigned (s : List Char) : Option Nat :=
  (readDigits (dropPlus s)).filter (· ≤ maxUnsigned)

/-- The decimal digits of a number read back as that number. -/
theorem readDigits_toDigits (n : Nat) : readDigits (Nat.toDigits 10 n) = some n := by
  have digits : (Nat.toDigits 10 n).all Char.isDigit = true :=
    List.all_eq_true.mpr fun _ mem => Nat.isDigit_of_mem_toDigits (by decide) (by decide) mem
  have nonempty : (Nat.toDigits 10 n).isEmpty = false := by
    simp [List.isEmpty_eq_false_iff, Nat.toDigits_ne_nil]
  simp [readDigits, digits, nonempty, Nat.ofDigitChars_ten_toDigits]

end Offside.Text
