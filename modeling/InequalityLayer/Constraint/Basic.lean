import InequalityLayer.Assignment
import InequalityLayer.Linear.Factor

/-!
Scalar inequality constraints `g(x) ≤ 0`. A constraint is what it answers: its variables, the dual
variable that belongs to it alone, and three evaluations at a point. Any of them may fail, since a
constraint may come from anywhere.
-/
namespace InequalityLayer
set_option autoImplicit false

structure Constraint (α : Type) where
  keys : List Key
  dualKey : Key
  /-- The value `g(x)`. -/
  violation : Assignment α → Outcome α α
  /-- The model of first order at a point: one row `∇g(x)ᵀ` with right-hand side `-g(x)`. -/
  linearize : Assignment α → Outcome α (LinearFactor α)
  /-- The curvature `-λ ∇²g(x)` weighted by the multiplier among the duals, if there is one. -/
  contribution : Assignment α → Assignment α → Outcome α (Option (HessianFactor α))

end InequalityLayer
