import InequalityLayer.Constraint.Set
import InequalityLayer.Trace.Pass

/-!
The curvature that the active constraints add to the Lagrangian. A constraint is active if its dual key
has an entry among the duals, even an empty one; only active constraints are asked, and the terms they
answer are listed in the order of the constraints.
-/
namespace InequalityLayer
set_option autoImplicit false

variable {α : Type}

namespace ConstraintSet

/-- The terms of a list of constraints, the first of which stands at position `i`. -/
def termsFrom (x duals : Assignment α) : Nat → List (Constraint α) → Pass α (List (HessianFactor α))
  | _, [] => pure []
  | i, c :: rest =>
    if duals.contains c.dualKey then do
      match ← c.contribution x duals with
      | some term =>
        Pass.emit (.visited
          { pass := "hessian", index := i, dualKey := c.dualKey
            multiplier := duals.scalar? c.dualKey, active := some true })
        let others ← termsFrom x duals (i + 1) rest
        return term :: others
      | none => termsFrom x duals (i + 1) rest
    else termsFrom x duals (i + 1) rest

def lagrangianCorrection (s : ConstraintSet α) (x duals : Assignment α) :
    Pass α (LagrangianCorrection α) := do
  let terms ← termsFrom x duals 0 s.constraints
  Pass.emit (.curvatureSummed terms.length s.size)
  return ⟨terms⟩

end ConstraintSet

end InequalityLayer
