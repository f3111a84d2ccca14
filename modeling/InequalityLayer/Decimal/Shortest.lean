import InequalityLayer.Decimal.Basic
import InequalityLayer.Decimal.Binary64

/-!
The shortest decimal that reads back. Grids of 1, 2, … 17 digits are tried in turn, and on each the two
neighbours of the value: the first grid with a neighbour that rounds to the value wins, of two such
neighbours the nearer, and of two equally near ones the larger. Seventeen digits always suffice.
-/
namespace InequalityLayer
set_option autoImplicit false

namespace Decimal

/-- The grid point `10 ^ exponent * n` at or below a positive number. -/
def below (x : Rat) (exponent : Int) : Decimal := ⟨(x / (10 : Rat) ^ exponent).floor.toNat, exponent⟩

/-- The grid point after `below`. -/
def above (x : Rat) (exponent : Int) : Decimal := ⟨(below x exponent).coefficient + 1, exponent⟩

/-- The neighbour of `x` on one grid that lies in the interval, the nearer if both do. -/
def onGrid? (x : Rat) (I : RoundingInterval) (exponent : Int) : Option Decimal :=
  let down := below x exponent
  let up := above x exponent
  if I.Contains up.value then
    if I.Contains down.value ∧ x - down.value < up.value - x then some down else some up
  else if I.Contains down.value then some down
  else none

/-- The shortest decimal in the interval around a positive number, without zeros at its end. -/
def shortest (x : Rat) (I : RoundingInterval) : Decimal :=
  let last := leadingPower x
  (((List.range 17).findSome? fun (n : Nat) => onGrid? x I (last - n)).getD (below x (last - 16))).trimmed

end Decimal

end InequalityLayer
