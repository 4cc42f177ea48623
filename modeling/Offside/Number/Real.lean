import Offside.Number.Binary64
import Offside.Number.Word

/-!
# Numbers with a fraction

A number that is not written as a whole number keeps its exact decimal value. What it counts as is
decided by the floating-point number nearest to it (`Offside.Number.Binary64`).
-/

namespace Offside

/-- A number that is not written as a whole number. -/
inductive RealNumber where
  | finite (negative : Bool) (size : Decimal)
  | infinite (negative : Bool)
  | notANumber
  deriving DecidableEq, Repr

namespace RealNumber

def isNonzero : RealNumber → Bool
  | finite _ size => !size.isZero
  | infinite _ | notANumber => true

/-- The unsigned number nearest to a number, halves going up; what is below or above all of them goes
to the least or greatest one. -/
def nearestUnsigned : RealNumber → Nat
  | finite false size => min (size.round?.getD maxUnsigned) maxUnsigned
  | infinite false => maxUnsigned
  | finite true _ | infinite true | notANumber => 0

end RealNumber

end Offside
