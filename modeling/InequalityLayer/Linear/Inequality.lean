import InequalityLayer.Linear.Jacobian

/-!
Linearized inequalities `a·δ ≤ b`, each tagged with the dual key of the constraint it models, and lists
of them. A flag marks the inequalities that an active-set search treats as equations; it changes neither
coefficients nor values.
-/
namespace InequalityLayer
set_option autoImplicit false

variable {α : Type}

structure LinearInequality (α : Type) where
  jacobian : JacobianFactor α
  dualKey : Key
  active : Bool := false

namespace LinearInequality

def keys (c : LinearInequality α) : List Key := c.jacobian.keys

/-- The right-hand side `b` of the first row. -/
def bound (c : LinearInequality α) : α := c.jacobian.rhs.head c.jacobian.rhs_ne_nil

variable [Scalar α]

/-- The product `a·δ` of the first row. -/
def product (c : LinearInequality α) (δ : Assignment α) : Except (ConstraintError α) α :=
  (fun pairs => JacobianFactor.rowProduct pairs 0) <$> c.jacobian.overlap δ

/-- The number `a·δ - b`; the inequality holds where it is not positive. -/
def error (c : LinearInequality α) (δ : Assignment α) : Except (ConstraintError α) α :=
  (fun product => product - c.bound) <$> c.product δ

def agrees (c d : LinearInequality α) : Bool :=
  c.jacobian.agrees d.jacobian && decide (c.dualKey = d.dualKey) && c.active == d.active

end LinearInequality

/-! ## Lists of inequalities -/

structure LinearizedSet (α : Type) where
  inequalities : List (LinearInequality α) := []

namespace LinearizedSet

def push (s : LinearizedSet α) (c : LinearInequality α) : LinearizedSet α := ⟨s.inequalities ++ [c]⟩

def size (s : LinearizedSet α) : Nat := s.inequalities.length

def get? (s : LinearizedSet α) (index : Nat) : Option (LinearInequality α) := s.inequalities[index]?

/-- Sets the flag of one inequality; an index without an inequality changes nothing. -/
def setActive (s : LinearizedSet α) (index : Nat) (active : Bool) : LinearizedSet α :=
  ⟨s.inequalities.modify index fun c => { c with active }⟩

def activate (s : LinearizedSet α) (index : Nat) : LinearizedSet α := s.setActive index true

def deactivate (s : LinearizedSet α) (index : Nat) : LinearizedSet α := s.setActive index false

/-- The dual keys of the flagged inequalities, in order. -/
def activeDualKeys (s : LinearizedSet α) : List Key :=
  (s.inequalities.filter LinearInequality.active).map LinearInequality.dualKey

variable [Scalar α]

/-- Whether no inequality is violated by more than `tol`. The first that is, or that cannot be
evaluated, decides. -/
def allWithin (δ : Assignment α) (tol : α) : List (LinearInequality α) → Except (ConstraintError α) Bool
  | [] => .ok true
  | c :: rest => do
    let violation ← c.error δ
    if tol < violation then return false
    allWithin δ tol rest

def isFeasible (s : LinearizedSet α) (δ : Assignment α) (tol : α) :
    Except (ConstraintError α) Bool :=
  allWithin δ tol s.inequalities

def agrees (s t : LinearizedSet α) : Bool := s.inequalities.isEqv t.inequalities LinearInequality.agrees

end LinearizedSet

end InequalityLayer
