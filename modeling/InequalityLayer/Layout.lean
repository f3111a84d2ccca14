import InequalityLayer.Assignment
import InequalityLayer.Failure

/-!
Layouts of stacked vectors: which variables, in which order, with how many coordinates each. A point
is stacked strictly, every variable has to be there; a step is stacked with zeros for the variables it
does not move. Either way a vector of another length is an error, and the first variable at fault in
the order of the layout is the one that is named.
-/
namespace InequalityLayer
set_option autoImplicit false

variable {α : Type}

/-- Variables with their dimensions; one variable may occur several times. -/
abbrev Layout := List (Key × Nat)

namespace Layout

def keys (L : Layout) : List Key := L.map Prod.fst

def dims (L : Layout) : List Nat := L.map Prod.snd

/-- The stacked dimension. -/
def dim (L : Layout) : Nat := L.dims.foldr (· + ·) 0

/-- A vector that has to have a given dimension. -/
def sized (key : Key) (dim : Nat) (vector : List α) : Except (ConstraintError α) (List α) :=
  if vector.length = dim then .ok vector else .error (.dimensionMismatch key dim vector.length)

def pointPart (x : Assignment α) (entry : Key × Nat) : Except (ConstraintError α) (List α) :=
  match x.get? entry.1 with
  | some vector => sized entry.1 entry.2 vector
  | none => .error (.missingVariable entry.1)

def stepPart [Scalar α] (δ : Assignment α) (entry : Key × Nat) :
    Except (ConstraintError α) (List α) :=
  match δ.get? entry.1 with
  | some vector => sized entry.1 entry.2 vector
  | none => .ok (List.replicate entry.2 0.0)

/-- The coordinates of all variables at a point, one after the other. -/
def stackPoint (L : Layout) (x : Assignment α) : Except (ConstraintError α) (List α) :=
  List.flatten <$> L.mapM (pointPart x)

/-- The coordinates of all variables in a step; a missing variable counts as zeros. -/
def stackStep [Scalar α] (L : Layout) (δ : Assignment α) : Except (ConstraintError α) (List α) :=
  List.flatten <$> L.mapM (stepPart δ)

/-- A stacked vector cut into the parts of its variables. -/
def split : Layout → List α → List (Key × List α)
  | [], _ => []
  | (key, dim) :: L, v => (key, v.take dim) :: split L (v.drop dim)

end Layout

end InequalityLayer
