import InequalityLayer.Constraint.Basic
import InequalityLayer.Size

/-!
Constraints given by functions of the stacked coordinates. Value and gradient are required; second
derivatives are either given too or taken as central differences of the gradient, one column for each
coordinate, and averaged with their transpose.
-/
namespace InequalityLayer
set_option autoImplicit false

variable {α : Type}

/-- A function that fills a buffer: from a point and the buffer's entries to new entries, from the first
one on. Entries that it does not reach are left as they were. -/
abbrev Derivative (α : Type) := List α → List α → List α

def Derivative.fill (f : Derivative α) (x buffer : List α) : List α := overwrite buffer (f x buffer)

structure SmoothConstraint (α : Type) [Scalar α] where
  layout : Layout
  dualKey : Key
  value : List α → α
  gradient : Derivative α
  hessian? : Option (Derivative α) := none
  /-- The distance of the two points a central difference is taken over from the middle one. -/
  differenceStep : α := 1e-5

namespace SmoothConstraint

variable [Scalar α]

/-! ## Derivatives at a stacked point -/

def zeros (n : Nat) : List α := List.replicate n 0.0

def gradientAt (c : SmoothConstraint α) (x : List α) : List α := c.gradient.fill x (zeros x.length)

/-- Central differences along some coordinates. The gradients ahead and behind are written to one buffer
each, which keeps what a gradient does not write. -/
def differenceColumns (c : SmoothConstraint α) (x : List α) :
    List Nat → List α → List α → List (List α)
  | [], _, _ => []
  | i :: rest, ahead, behind =>
    let ahead := c.gradient.fill (x.modify i (· + c.differenceStep)) ahead
    let behind := c.gradient.fill (x.modify i (· - c.differenceStep)) behind
    List.zipWith (fun a b => (a - b) / (2.0 * c.differenceStep)) ahead behind ::
      c.differenceColumns x rest ahead behind

def differenceHessian (c : SmoothConstraint α) (x : List α) : List α :=
  let n := x.length
  let columns := c.differenceColumns x (List.range n) (zeros n) (zeros n)
  symmetrize (tabulate n n fun k i => (columns.getD i []).getD k 0.0) n

/-- The matrix of second derivatives, row by row. -/
def hessianAt (c : SmoothConstraint α) (x : List α) : List α :=
  match c.hessian? with
  | some hessian => hessian.fill x (zeros (x.length * x.length))
  | none => c.differenceHessian x

/-- The second derivatives in a vector of their own, which is made before any of them is computed. -/
def curvature (c : SmoothConstraint α) (x : List α) : Except Fault (List α) := do
  let size := x.length * x.length
  Size.checkProduct size
  Size.checkVector size
  return c.hessianAt x

/-! ## Answers at a point -/

/-- The stacked dimension, which has to be a word. -/
def dim (c : SmoothConstraint α) : Except Fault Nat := do
  Size.checkSum c.layout.dim
  return c.layout.dim

/-- The coordinates of the variables. Room for all of them is made first, so a layout too large for a
vector is a fault even where a variable is missing. -/
def stack (c : SmoothConstraint α) (x : Assignment α) : Outcome α (List α) := do
  let dim ← c.dim
  Size.checkVector dim
  c.layout.stackPoint x

def violation (c : SmoothConstraint α) (x : Assignment α) : Outcome α α := do
  let stacked ← c.stack x
  return c.value stacked

/-- The row `∇g(x)ᵀ δ ≤ -g(x)`, with one block for each variable of the layout. -/
def linearize (c : SmoothConstraint α) (x : Assignment α) : Outcome α (LinearFactor α) := do
  let stacked ← c.stack x
  let rows ← JacobianFactor.ofTerms (c.layout.split (c.gradientAt stacked)) [-c.value stacked]
  return .jacobian rows

/-- Without a multiplier there is no term, and the point is not looked at. -/
def contribution (c : SmoothConstraint α) (x duals : Assignment α) :
    Outcome α (Option (HessianFactor α)) :=
  match duals.scalar? c.dualKey with
  | none => .ok none
  | some multiplier => do
    let stacked ← c.stack x
    let matrix ← c.curvature stacked
    let term ← HessianFactor.ofCurvature c.layout (scale matrix (-multiplier))
    return some term

def toConstraint (c : SmoothConstraint α) : Constraint α where
  keys := c.layout.keys
  dualKey := c.dualKey
  violation := c.violation
  linearize := c.linearize
  contribution := c.contribution

end SmoothConstraint

end InequalityLayer
