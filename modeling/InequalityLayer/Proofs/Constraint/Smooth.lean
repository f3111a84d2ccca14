import InequalityLayer.Constraint.Linearization
import InequalityLayer.Constraint.Smooth
import InequalityLayer.Proofs.Linear.Evaluation
import InequalityLayer.Proofs.Stacking
import Mathlib

/-!
What a smooth constraint answers. All three answers are made from the stacked coordinates: once they are
there (`stack_eq_ok_iff`), the constraint has its value (`violation_eq`), one coefficient row
(`inequality_eq`) and, under a multiplier, one quadratic form (`contribution_of_stack`,
`exists_term_of_contribution`). Only the form needs a matrix of second derivatives, for which there has to be
room as well (`HasRoom`, `contribution_of_no_room`).
-/
namespace InequalityLayer
set_option autoImplicit false

variable {α : Type}

/-! ## Factors of the right size -/

namespace JacobianFactor

theorem ofTerms_singleton (terms : List (Key × List α)) (b : α) :
    ofTerms terms [b] = .ok ⟨terms, [b], List.cons_ne_nil _ _, fun _ _ => Nat.one_dvd _⟩ :=
  ofTerms_of_whole (List.cons_ne_nil b []) fun _ _ => Nat.one_dvd _

end JacobianFactor

theorem HessianFactor.assemble_of_length {layout : Layout} {curvature linear : List α}
    (square : curvature.length = layout.dim * layout.dim) (stacked : linear.length = layout.dim) (constant : α) :
    assemble layout curvature linear constant = .ok ⟨layout, curvature, linear, constant, square, stacked⟩ := by
  rw [assemble, dif_pos square, dif_pos stacked]

/-- Where a square matrix over a layout is a vector, no size on the way to the form is too large. -/
theorem HessianFactor.ofCurvature_of_length [Scalar α] {layout : Layout}
    (room : layout.dim * layout.dim < Size.vectorLimit) {curvature : List α}
    (square : curvature.length = layout.dim * layout.dim) :
    ofCurvature layout curvature =
      .ok ⟨layout, curvature, SmoothConstraint.zeros layout.dim, 0.0, square, List.length_replicate⟩ := by
  have small : layout.dim < Size.vectorLimit := (Nat.le_mul_self _).trans_lt room
  unfold ofCurvature
  simp only [Size.checkSum_of_room small, Size.checkVector_of_room small, Size.checkProduct_of_room room, square]
  exact assemble_of_length square List.length_replicate 0.0

namespace SmoothConstraint

variable [Scalar α] (c : SmoothConstraint α) {x duals : Assignment α} {y : List α}

/-! ## Stacked coordinates -/

theorem stack_of_room (room : c.layout.dim < Size.vectorLimit) :
    c.stack x = (c.layout.stackPoint x).mapError .error := by
  unfold stack dim
  simp only [lift_fault, lift_reported, Except.mapError, bind, Except.bind, pure, Except.pure,
    Size.checkSum_of_room room, Size.checkVector_of_room room]

theorem stack_of_no_room (large : Size.vectorLimit ≤ c.layout.dim) : ∃ b, c.stack x = .error (.fault b) := by
  have vector : Size.checkVector c.layout.dim = .error .vectorTooLong := Size.check_eq_error _ large
  unfold stack dim
  by_cases word : c.layout.dim < Size.limit
  · have sum : Size.checkSum c.layout.dim = .ok () := Size.check_eq_ok _ word
    simp only [lift_fault, Except.mapError, bind, Except.bind, pure, Except.pure, sum, vector]
    exact ⟨_, rfl⟩
  · have sum : Size.checkSum c.layout.dim = .error .sumOverflow := Size.check_eq_error _ (not_lt.mp word)
    simp only [lift_fault, Except.mapError, bind, Except.bind, sum]
    exact ⟨_, rfl⟩

theorem stack_eq_ok_iff :
    c.stack x = .ok y ↔ c.layout.dim < Size.vectorLimit ∧ c.layout.stackPoint x = .ok y := by
  by_cases room : c.layout.dim < Size.vectorLimit
  · rw [stack_of_room c room]
    cases c.layout.stackPoint x <;> simp [room, Except.mapError]
  · obtain ⟨b, fault⟩ := c.stack_of_no_room (x := x) (not_lt.mp room)
    simp [fault, room]

theorem length_of_stack (ok : c.stack x = .ok y) : y.length = c.layout.dim :=
  Layout.length_stackPoint (c.stack_eq_ok_iff.mp ok).2

/-! ## Second derivatives -/

/-- There is room for a square matrix over the stacked coordinates. -/
def HasRoom : Prop := c.layout.dim * c.layout.dim < Size.vectorLimit

theorem HasRoom.dim_lt {c : SmoothConstraint α} (room : c.HasRoom) : c.layout.dim < Size.vectorLimit :=
  (Nat.le_mul_self _).trans_lt room

/-- The quadratic form made from the stacked coordinates: the second derivatives over the layout, weighted with
minus the multiplier, and zeros beside them. -/
structure IsTermAt (y : List α) (multiplier : α) (H : HessianFactor α) : Prop where
  layout : H.layout = c.layout
  curvature : H.curvature = scale (c.hessianAt y) (-multiplier)
  linear : H.linear = zeros c.layout.dim
  constant : H.constant = 0.0

theorem curvature_of_room (length : y.length = c.layout.dim) (room : c.HasRoom) :
    c.curvature y = .ok (c.hessianAt y) := by
  unfold curvature
  simp only [length, Size.checkProduct_of_room room, Size.checkVector_of_room room, bind, Except.bind]
  rfl

theorem curvature_of_no_room (length : y.length = c.layout.dim) (large : ¬ c.HasRoom) :
    ∃ b, c.curvature y = .error b := by
  have vector : Size.checkVector (c.layout.dim * c.layout.dim) = .error .vectorTooLong :=
    Size.check_eq_error _ (not_lt.mp large)
  unfold curvature
  simp only [length, vector, bind, Except.bind]
  cases Size.checkProduct (c.layout.dim * c.layout.dim) <;> exact ⟨_, rfl⟩

/-! ## The three answers -/

theorem length_zeros (n : ℕ) : (zeros n : List α).length = n := List.length_replicate

theorem length_hessianAt : (c.hessianAt y).length = y.length * y.length := by
  unfold hessianAt
  cases c.hessian? with
  | some hessian => exact (length_overwrite _ _).trans (length_zeros _)
  | none => exact length_tabulate _ _ _

theorem violation_eq : c.violation x = (c.stack x).map c.value := by
  unfold violation
  cases c.stack x <;> rfl

def rowAt (y : List α) : JacobianFactor α where
  terms := c.layout.split (c.gradientAt y)
  rhs := [-c.value y]
  rhs_ne_nil := List.cons_ne_nil _ _
  rows_dvd _ _ := Nat.one_dvd _

theorem linearize_eq : c.linearize x = (c.stack x).map fun y => .jacobian (c.rowAt y) := by
  unfold linearize
  cases c.stack x with
  | error e => rfl
  | ok y =>
    simp only [lift_fault, Except.mapError, bind, Except.bind, JacobianFactor.ofTerms_singleton]
    rfl

theorem inequality_eq :
    c.toConstraint.inequality x =
      (c.stack x).map fun y => { jacobian := c.rowAt y, dualKey := c.dualKey } := by
  have row : c.toConstraint.linearize x = _ := c.linearize_eq
  unfold Constraint.inequality
  rw [row]
  cases c.stack x <;> rfl

theorem exists_stack_of_inequality {q : LinearInequality α} (linear : c.toConstraint.inequality x = .ok q) :
    ∃ y, c.stack x = .ok y ∧ q = { jacobian := c.rowAt y, dualKey := c.dualKey } := by
  rw [c.inequality_eq] at linear
  cases stacked : c.stack x with
  | error e =>
    rw [stacked] at linear
    cases linear
  | ok y =>
    rw [stacked] at linear
    exact ⟨y, rfl, (Except.ok.inj linear).symm⟩

theorem contribution_of_none (unweighted : duals.scalar? c.dualKey = none) :
    c.contribution x duals = .ok none := by
  unfold contribution
  rw [unweighted]

section Weighted

variable {multiplier : α} (entry : duals.scalar? c.dualKey = some multiplier)
include entry

theorem contribution_of_stack (room : c.HasRoom) (ok : c.stack x = .ok y) :
    ∃ term : HessianFactor α, c.contribution x duals = .ok (some term) ∧ c.IsTermAt y multiplier term := by
  have length := c.length_of_stack ok
  have square : (scale (c.hessianAt y) (-multiplier)).length = c.layout.dim * c.layout.dim := by
    unfold scale
    rw [List.length_map, length_hessianAt, length]
  refine ⟨⟨c.layout, _, zeros c.layout.dim, 0.0, square, length_zeros _⟩, ?_, ⟨rfl, rfl, rfl, rfl⟩⟩
  have matrix := c.curvature_of_room length room
  have made := HessianFactor.ofCurvature_of_length room square
  unfold contribution
  rw [entry, ok]
  simp only [lift_fault, Except.mapError, bind, Except.bind, matrix, made]
  rfl

theorem contribution_of_failure {e : Failure α} (failed : c.stack x = .error e) :
    c.contribution x duals = .error e := by
  unfold contribution
  rw [entry, failed]
  rfl

theorem contribution_of_no_room (large : ¬ c.HasRoom) (ok : c.stack x = .ok y) :
    ∃ b, c.contribution x duals = .error (.fault b) := by
  obtain ⟨b, fault⟩ := c.curvature_of_no_room (c.length_of_stack ok) large
  refine ⟨b, ?_⟩
  unfold contribution
  rw [entry, ok]
  simp only [lift_fault, Except.mapError, bind, Except.bind, fault]

/-- Under a multiplier every answer is a term, and it is the one made from the stacked coordinates. -/
theorem exists_term_of_contribution {answer : Option (HessianFactor α)} (ok : c.contribution x duals = .ok answer) :
    c.HasRoom ∧ ∃ y term, c.stack x = .ok y ∧ answer = some term ∧ c.IsTermAt y multiplier term := by
  cases stacked : c.stack x with
  | error e =>
    rw [c.contribution_of_failure entry stacked] at ok
    cases ok
  | ok y =>
    by_cases room : c.HasRoom
    · obtain ⟨term, same, made⟩ := c.contribution_of_stack entry room stacked
      rw [same] at ok
      exact ⟨room, y, term, rfl, (Except.ok.inj ok).symm, made⟩
    · obtain ⟨b, fault⟩ := c.contribution_of_no_room entry room stacked
      rw [fault] at ok
      cases ok

theorem isTermAt_of_contribution (stacked : c.stack x = .ok y) {term : HessianFactor α}
    (ok : c.contribution x duals = .ok (some term)) : c.IsTermAt y multiplier term := by
  obtain ⟨_, _, _, point, same, made⟩ := c.exists_term_of_contribution entry ok
  obtain rfl := Except.ok.inj (stacked.symm.trans point)
  exact Option.some.inj same ▸ made

/-- Under a multiplier a constraint that cannot answer has no stacked coordinates, or no room for the matrix. -/
theorem contribution_error_cases {e : Failure α} (failed : c.contribution x duals = .error e) :
    c.stack x = .error e ∨ ¬ c.HasRoom ∧ ∃ b, e = .fault b := by
  cases stacked : c.stack x with
  | error own =>
    rw [c.contribution_of_failure entry stacked] at failed
    exact .inl (congrArg _ (Except.error.inj failed))
  | ok y =>
    by_cases room : c.HasRoom
    · obtain ⟨term, ok, _⟩ := c.contribution_of_stack entry room stacked
      rw [ok] at failed
      cases failed
    · obtain ⟨b, fault⟩ := c.contribution_of_no_room entry room stacked
      rw [fault] at failed
      exact .inr ⟨room, b, (Except.error.inj failed).symm⟩

end Weighted

/-- Functions for the second derivatives that give the same matrices give the same contributions. -/
theorem contribution_of_hessianAt {hessian : Option (Derivative α)}
    (same : ∀ y, y.length = c.layout.dim → { c with hessian? := hessian }.hessianAt y = c.hessianAt y)
    (x duals : Assignment α) : { c with hessian? := hessian }.contribution x duals = c.contribution x duals := by
  have point : { c with hessian? := hessian }.stack x = c.stack x := rfl
  unfold contribution
  rw [point]
  cases duals.scalar? c.dualKey with
  | none => rfl
  | some multiplier =>
    cases stacked : c.stack x with
    | error e => rfl
    | ok y => simp only [bind, Except.bind, curvature, same y (c.length_of_stack stacked)]

end SmoothConstraint

/-- The constraint is given by functions of the stacked coordinates. -/
def Constraint.IsSmooth [Scalar α] (c : Constraint α) : Prop := ∃ f : SmoothConstraint α, c = f.toConstraint

end InequalityLayer
