/-!
# Numbers of 64 binary digits

A word of 64 binary digits is read as an unsigned number or as a signed one, whose negative numbers
have their first digit set. The bounds are written out, and `maxUnsigned_succ` and `minSigned_eq`
say which powers of two they are.
-/

namespace Offside

def maxUnsigned : Nat := 18446744073709551615

def maxSigned : Int := 9223372036854775807

def minSigned : Int := -9223372036854775808

theorem maxUnsigned_succ : maxUnsigned + 1 = Nat.pow 2 64 := rfl

theorem minSigned_eq : minSigned = -(Nat.pow 2 63 : Nat) ∧ maxSigned = (Nat.pow 2 63 : Nat) - 1 :=
  ⟨rfl, rfl⟩

def signed? (value : Int) : Option Int :=
  if minSigned ≤ value ∧ value ≤ maxSigned then some value else none

/-- The signed number with the same binary digits as an unsigned one. -/
def asSigned (number : Nat) : Int := Int.bmod number (maxUnsigned + 1)

/-- Unsigned numbers that are signed ones as well stay what they are. -/
theorem asSigned_of_le {number : Nat} (h : (number : Int) ≤ maxSigned) : asSigned number = number := by
  unfold asSigned
  apply Int.bmod_eq_of_le <;> simp only [maxUnsigned, maxSigned] at * <;> omega

/-- All other unsigned numbers count as negative. -/
theorem asSigned_neg {number : Nat} (h : maxSigned < number) (bound : number ≤ maxUnsigned) :
    asSigned number < 0 := by
  unfold asSigned
  simp only [maxUnsigned, maxSigned] at *
  rw [Int.bmod_def]
  split <;> omega

end Offside
