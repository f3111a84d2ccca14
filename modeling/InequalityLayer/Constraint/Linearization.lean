import InequalityLayer.Constraint.Set
import InequalityLayer.Linear.Inequality
import InequalityLayer.Trace.Pass

/-!
Linearization of a constraint set: one inequality `a·δ ≤ b` for each constraint, in order. The pass stops
at the first constraint that fails, or that answers with anything but one coefficient row.
-/
namespace InequalityLayer
set_option autoImplicit false

variable {α : Type}

/-- The first-order model of one constraint as an inequality. -/
def Constraint.inequality (c : Constraint α) (x : Assignment α) : Outcome α (LinearInequality α) := do
  let factor ← c.linearize x
  match factor with
  | .hessian _ => .error (.error (.malformed c.dualKey factor.kind))
  | .jacobian jacobian =>
    if jacobian.rows = 1 then .ok { jacobian, dualKey := c.dualKey }
    else .error (.error (.nonScalar c.dualKey jacobian.rows))

variable [Scalar α]

/-- The value of the linearized constraint where it was linearized. -/
def LinearInequality.baseValue (c : LinearInequality α) : α := -c.bound

namespace ConstraintSet

/-- The inequalities of a list of constraints, the first of which stands at position `i`. -/
def linearizeFrom (x : Assignment α) : Nat → List (Constraint α) → Pass α (List (LinearInequality α))
  | _, [] => pure []
  | i, c :: rest => do
    let inequality ← c.inequality x
    Pass.emit (.visited
      { pass := "linearize", index := i, dualKey := c.dualKey, violation := some inequality.baseValue })
    let others ← linearizeFrom x (i + 1) rest
    return inequality :: others

def linearize (s : ConstraintSet α) (x : Assignment α) : Pass α (LinearizedSet α) := do
  let inequalities ← linearizeFrom x 0 s.constraints
  Pass.emit (.linearized inequalities.length)
  return ⟨inequalities⟩

end ConstraintSet

end InequalityLayer
