import InequalityLayer.Constraint.Set
import InequalityLayer.Trace.Pass

/-!
The merit value of a point: the sum of `|g(x)|` over all constraints, from the first on. A violation that
is not a finite number is an error and not a summand.
-/
namespace InequalityLayer
set_option autoImplicit false

variable {α : Type} [Scalar α]

namespace ConstraintSet

/-- The sum over a list of constraints, the first of which stands at position `i`, added to `total`. -/
def totalFrom (x : Assignment α) : Nat → α → List (Constraint α) → Pass α α
  | _, total, [] => pure total
  | i, total, c :: rest => do
    let violation ← c.violation x
    if Scalar.isFinite violation then
      Pass.emit (.visited
        { pass := "merit", index := i, dualKey := c.dualKey, violation := some violation })
      totalFrom x (i + 1) (total + Scalar.abs violation) rest
    else ⟨[], .error (.error (.nonFiniteViolation c.dualKey violation))⟩

def totalViolation (s : ConstraintSet α) (x : Assignment α) : Pass α α :=
  totalFrom x 0 0.0 s.constraints

end ConstraintSet

end InequalityLayer
