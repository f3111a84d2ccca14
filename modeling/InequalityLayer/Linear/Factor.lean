import InequalityLayer.Linear.Hessian
import InequalityLayer.Linear.Jacobian

/-!
Local models of a nonlinear term: coefficient rows for a first-order model, a quadratic form for a
second-order one. A constraint has to answer with rows.
-/
namespace InequalityLayer
set_option autoImplicit false

variable {α : Type}

inductive LinearFactor (α : Type) where
  | jacobian (rows : JacobianFactor α)
  | hessian (form : HessianFactor α)

/-- The name of the kind of model. -/
def LinearFactor.kind : LinearFactor α → String
  | jacobian _ => "Jacobian"
  | hessian _ => "Hessian"

end InequalityLayer
