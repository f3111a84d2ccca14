import InequalityLayer.Key
import InequalityLayer.NumberText
import InequalityLayer.Scalar
import InequalityLayer.Text.Invisible

/-!
Why an operation has no result. A `ConstraintError` is an answer about the data a caller passed in: a
variable is missing, a constraint does not have the promised shape. A `Fault` is a broken promise of the
code that built an object, as a build with debug assertions and overflow checks finds it. An inactive
constraint is neither: its dual variable is simply absent.
-/
namespace InequalityLayer
set_option autoImplicit false

variable {α : Type}

/-! ## Reported errors -/

inductive ConstraintError (α : Type) where
  /-- The first-order model of a constraint is not a coefficient row. -/
  | malformed (dualKey : Key) (kind : String)
  /-- The first-order model of a constraint has several rows. -/
  | nonScalar (dualKey : Key) (rows : Nat)
  /-- The dual variable of a new constraint belongs to another one. -/
  | duplicateDualKey (dualKey : Key)
  | missingVariable (key : Key)
  | dimensionMismatch (key : Key) (expected actual : Nat)
  /-- A violation that has to be a number is none, or is infinite. -/
  | nonFiniteViolation (dualKey : Key) (value : α)
  deriving DecidableEq

namespace ConstraintError

def message [NumberText α] : ConstraintError α → String
  | malformed dualKey kind =>
    s!"constraint with dual key {dualKey} linearized to a {kind} factor, expected a Jacobian factor"
  | nonScalar dualKey rows =>
    s!"constraint with dual key {dualKey} has {rows} rows, inequality constraints must be scalar"
  | duplicateDualKey dualKey => s!"dual key {dualKey} is already owned by another constraint"
  | missingVariable key => s!"variable {key} is missing from the linearization point"
  | dimensionMismatch key expected actual =>
    s!"variable {key} has dimension {actual}, expected {expected}"
  | nonFiniteViolation dualKey value =>
    s!"constraint with dual key {dualKey} has non-finite violation " ++ NumberText.plain value

/-- Errors of one kind with the same data; violations are compared as numbers, so an error about a NaN
does not agree with itself. -/
def agrees [Scalar α] : ConstraintError α → ConstraintError α → Bool
  | nonFiniteViolation k v, nonFiniteViolation l w => decide (k = l) && Scalar.agrees v w
  | a, b => decide (a = b)

end ConstraintError

/-! ## Broken promises -/

inductive Fault where
  | noRows
  | raggedBlock (key : Key) (length rows : Nat)
  | curvatureSize (dim : Nat)
  | linearSize (dim : Nat)
  | nonAsciiTag (tag : Char)
  | outOfBounds (length position : Nat)
  | sumOverflow
  | productOverflow
  | vectorTooLong
  deriving DecidableEq

def Fault.message : Fault → String
  | noRows => "Jacobian factor needs at least one row"
  | raggedBlock key length rows =>
    s!"block for {key} has {length} entries, not a multiple of {rows} rows"
  | curvatureSize dim => s!"G must be {dim} x {dim}"
  | linearSize dim => s!"g must have length {dim}"
  | nonAsciiTag tag => s!"symbol tag {quoteChar tag} is not ASCII"
  | outOfBounds length position =>
    s!"index out of bounds: the len is {length} but the index is {position}"
  | sumOverflow => "attempt to add with overflow"
  | productOverflow => "attempt to multiply with overflow"
  | vectorTooLong => "capacity overflow"

/-! ## Either of them -/

inductive Failure (α : Type) where
  | error (reported : ConstraintError α)
  | fault (broken : Fault)
  deriving DecidableEq

/-- What a constraint, which may be built by anyone, answers. -/
abbrev Outcome (α β : Type) := Except (Failure α) β

instance : MonadLift (Except (ConstraintError α)) (Except (Failure α)) where
  monadLift r := r.mapError Failure.error

instance : MonadLift (Except Fault) (Except (Failure α)) where
  monadLift r := r.mapError Failure.fault

theorem lift_reported {β : Type} (r : Except (ConstraintError α) β) :
    (liftM r : Outcome α β) = r.mapError .error := rfl

theorem lift_fault {β : Type} (r : Except Fault β) : (liftM r : Outcome α β) = r.mapError .fault := rfl

end InequalityLayer
