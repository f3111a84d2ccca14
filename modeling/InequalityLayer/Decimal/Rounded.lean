import InequalityLayer.Decimal.Basic

/-!
Rounding to a fixed number of significant digits. A quotient goes to the nearest whole number and a half
to the even one, so the result is the decimal nearest to the exact value.
-/
namespace InequalityLayer
set_option autoImplicit false

/-- The nearest integer; a half goes to the even neighbour. -/
def roundHalfEven (x : Rat) : Int :=
  let down := x.floor
  let rest := x - down
  if rest < 1 / 2 then down
  else if 1 / 2 < rest then down + 1
  else if down % 2 = 0 then down else down + 1

namespace Decimal

/-- A positive number rounded to `places` digits after its leading one. -/
def rounded (x : Rat) (places : Nat) : Decimal :=
  let exponent := leadingPower x - places
  ⟨(roundHalfEven (x / (10 : Rat) ^ exponent)).toNat, exponent⟩

end Decimal

end InequalityLayer
