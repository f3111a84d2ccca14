import InequalityLayer.Layout
import InequalityLayer.Linear.Dense
import InequalityLayer.Size
import Std.Data.TreeSet

/-!
Quadratic forms `½ δᵀGδ - gᵀδ + f` over the variables of a layout, and sums of such forms. `G` is dense
and kept row by row. A `LagrangianCorrection` is the list of curvature terms that the active constraints
contribute to the Lagrangian of a subproblem; its value is the sum of theirs.
-/
namespace InequalityLayer
set_option autoImplicit false

variable {α : Type}

structure HessianFactor (α : Type) where
  layout : Layout
  curvature : List α
  linear : List α
  constant : α
  length_curvature : curvature.length = layout.dim * layout.dim
  length_linear : linear.length = layout.dim

namespace HessianFactor

def assemble (layout : Layout) (curvature linear : List α) (constant : α) :
    Except Fault (HessianFactor α) :=
  if square : curvature.length = layout.dim * layout.dim then
    if stacked : linear.length = layout.dim then
      .ok ⟨layout, curvature, linear, constant, square, stacked⟩
    else .error (.linearSize layout.dim)
  else .error (.curvatureSize layout.dim)

/-- A form over any layout; its dimension and the size of `G` have to be words. -/
def ofParts (layout : Layout) (curvature linear : List α) (constant : α) :
    Except Fault (HessianFactor α) := do
  Size.checkSum layout.dim
  Size.checkProduct (layout.dim * layout.dim)
  assemble layout curvature linear constant

def keys (H : HessianFactor α) : List Key := H.layout.keys

def dim (H : HessianFactor α) : Nat := H.layout.dim

/-- The entry of `G` at a position counted along its rows, in a build with overflow checks: a position that
is no word is a fault, and so is one behind the last entry. -/
def entry (H : HessianFactor α) (row column : Nat) : Except Fault α := do
  Size.checkProduct (row * H.dim)
  let position := row * H.dim + column
  Size.checkSum position
  if inside : position < H.curvature.length then .ok H.curvature[position]
  else .error (.outOfBounds H.curvature.length position)

variable [Scalar α]

/-- The form `½ δᵀGδ`. Its linear part is built once `G` is known to fit. -/
def ofCurvature (layout : Layout) (curvature : List α) : Except Fault (HessianFactor α) := do
  Size.checkSum layout.dim
  Size.checkVector layout.dim
  Size.checkProduct (layout.dim * layout.dim)
  if curvature.length = layout.dim * layout.dim then
    assemble layout curvature (List.replicate layout.dim 0.0) 0.0
  else .error (.curvatureSize layout.dim)

/-- The value at a step; a variable that the step does not move counts as zeros. -/
def error (H : HessianFactor α) (δ : Assignment α) : Except (ConstraintError α) α :=
  (fun x => 0.5 * quadraticForm H.curvature x - dot H.linear x + H.constant) <$> H.layout.stackStep δ

def agrees (H K : HessianFactor α) : Bool :=
  decide (H.layout = K.layout) && H.curvature.isEqv K.curvature Scalar.agrees &&
    H.linear.isEqv K.linear Scalar.agrees && Scalar.agrees H.constant K.constant

end HessianFactor

/-! ## Sums of quadratic forms -/

structure LagrangianCorrection (α : Type) where
  terms : List (HessianFactor α) := []

namespace LagrangianCorrection

def push (c : LagrangianCorrection α) (term : HessianFactor α) : LagrangianCorrection α :=
  ⟨c.terms ++ [term]⟩

def size (c : LagrangianCorrection α) : Nat := c.terms.length

/-- The variables of all terms, each once, in increasing order. -/
def keys (c : LagrangianCorrection α) : List Key :=
  (Std.TreeSet.ofList (c.terms.flatMap HessianFactor.keys)).toList

variable [Scalar α]

/-- The sum of the values of all terms; the first term without a value gives the error. -/
def error (c : LagrangianCorrection α) (δ : Assignment α) : Except (ConstraintError α) α :=
  sum <$> c.terms.mapM fun term => term.error δ

def agrees (c d : LagrangianCorrection α) : Bool := c.terms.isEqv d.terms HessianFactor.agrees

end LagrangianCorrection

end InequalityLayer
