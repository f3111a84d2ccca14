import InequalityLayer.Proofs.Constraint.Curvature
import InequalityLayer.Proofs.Constraint.SecondDerivative
import InequalityLayer.Proofs.Exact.FirstOrder
import Mathlib

/-!
The correction as the curvature of the Lagrangian, over the rationals. `secondOrder` is `dᵀHd` written out in the
entries of the matrix a constraint computes and the coordinates of the step, zeros for a variable that does not
move. The correction takes the constraints with a multiplier `λ` and has the value `-½ Σ λ dᵀHd`, whatever
variables they share and whichever of them the step names: `error_lagrangianCorrection`.
-/
namespace InequalityLayer
set_option autoImplicit false
open Finset

/-! ## One constraint -/

namespace SmoothConstraint

/-- The second derivatives at a point, applied twice to the step. -/
def secondOrder (c : SmoothConstraint ℚ) (x δ : Assignment ℚ) : ℚ :=
  ∑ i ∈ range c.layout.dim, ∑ k ∈ range c.layout.dim, c.secondDerivative (x.coordinates c.layout) i k *
    ((δ.coordinates c.layout).getD i 0 * (δ.coordinates c.layout).getD k 0)

theorem quadraticForm_hessianAt (c : SmoothConstraint ℚ) {y d : List ℚ} (length : d.length = y.length) :
    quadraticForm (c.hessianAt y) d =
      ∑ i ∈ range y.length, ∑ k ∈ range y.length, c.secondDerivative y i k * (d.getD i 0 * d.getD k 0) := by
  rw [quadraticForm_eq_sum _ length]
  refine sum_congr rfl fun i hi => sum_congr rfl fun k hk => ?_
  rw [← zero_rat, c.getD_hessianAt y (mem_range.mp hi) (mem_range.mp hk)]

theorem error_term (c : SmoothConstraint ℚ) {x δ duals : Assignment ℚ} {term : HessianFactor ℚ} {multiplier : ℚ}
    (entry : duals.scalar? c.dualKey = some multiplier) (ok : c.contribution x duals = .ok (some term))
    (fits : c.layout.Fits δ) : term.error δ = .ok (-(1 / 2) * (multiplier * c.secondOrder x δ)) := by
  obtain ⟨_, y, _, stacked, _⟩ := c.exists_term_of_contribution entry ok
  obtain rfl : y = x.coordinates c.layout := Layout.coordinates_of_stackPoint (c.stack_eq_ok_iff.mp stacked).2
  have step := Layout.stackStep_of_fits fits
  have dim := c.length_of_stack stacked
  rw [c.error_contribution stacked step entry ok,
    c.quadraticForm_hessianAt ((Layout.length_stackStep step).trans dim.symm), dim, secondOrder]
  congr 1
  ring

end SmoothConstraint

/-! ## A set of constraints -/

namespace ConstraintSet

/-- The correction at a step is minus one half of the sum of the multipliers times the second derivatives
applied twice to the step, over the constraints with a multiplier. -/
theorem error_lagrangianCorrection (s : ConstraintSet ℚ) {smooth : List (SmoothConstraint ℚ)}
    (constraints : s.constraints = smooth.map SmoothConstraint.toConstraint) (x duals δ : Assignment ℚ)
    {L : LagrangianCorrection ℚ} (ok : (s.lagrangianCorrection x duals).outcome = .ok L)
    (fits : ∀ f ∈ weighted duals smooth, f.layout.Fits δ) :
    L.error δ = .ok (-(1 / 2) * ((weighted duals smooth).map fun f =>
      (duals.scalar? f.dualKey).getD 0 * f.secondOrder x δ).sum) := by
  have answers := (lagrangianCorrection_smooth_eq_ok_iff constraints L).mp ok
  have values : List.Forall₂ (fun term v => term.error δ = .ok v) L.terms ((weighted duals smooth).map fun f =>
      -(1 / 2) * ((duals.scalar? f.dualKey).getD 0 * f.secondOrder x δ)) := by
    rw [List.forall₂_map_right_iff]
    refine ((List.forall₂_and_left _ _).mpr ⟨fun f mem => mem, answers⟩).flip.imp fun term f h => ?_
    obtain ⟨multiplier, entry⟩ := exists_multiplier_of_weighted h.1
    rw [f.error_term entry h.2 (fits f h.1), entry, Option.getD_some]
  rw [LagrangianCorrection.error, mapM_eq_ok_iff.mpr values, Except.map_ok, sum_rat, List.sum_map_mul_left]

/-- A given matrix that is not symmetric, differences of a gradient whose last component is not written, and a
constraint over a variable that `twoPoints` does not have. -/
def threeCurved : List (SmoothConstraint ℚ) :=
  [{ layout := [(⟨1⟩, 2), (⟨2⟩, 1)], dualKey := ⟨7⟩, value := fun _ => 0, gradient := fun _ _ => []
     hessian? := some fun y _ => [1, 2, 3, 0, y.sum] },
    { layout := [(⟨2⟩, 1), (⟨1⟩, 2)], dualKey := ⟨8⟩, value := fun _ => 0
      gradient := fun y _ => List.zipWith (· * ·) y (y.drop 1), differenceStep := 1 },
    flat [(⟨3⟩, 1)] ⟨9⟩]

def twoPoints : Assignment ℚ := .ofList [(⟨1⟩, [1, 2]), (⟨2⟩, [3])]

/-- The last entry has no component. -/
def twoWeights : Assignment ℚ := .ofList [(⟨7⟩, [2]), (⟨8⟩, [-3, 6]), (⟨9⟩, [])]

/-- The step moves one of the two variables. -/
theorem error_lagrangianCorrection_threeCurved :
    ∃ L, ((ofList (threeCurved.map SmoothConstraint.toConstraint)).lagrangianCorrection twoPoints twoWeights).outcome =
      .ok L ∧ (∀ f ∈ weighted twoWeights threeCurved, f.layout.Fits (.ofList [(⟨1⟩, [1, -1])])) ∧
      L.error (.ofList [(⟨1⟩, [1, -1])]) = .ok (-(1 / 2) * (2 * 5 + -3 * 1)) := by
  obtain ⟨L, ok⟩ : ∃ L, ((ofList (threeCurved.map SmoothConstraint.toConstraint)).lagrangianCorrection twoPoints
    twoWeights).outcome = .ok L := ⟨_, rfl⟩
  have fits : ∀ f ∈ weighted twoWeights threeCurved, f.layout.Fits (.ofList [(⟨1⟩, [1, -1])]) := by decide
  refine ⟨L, ok, fits, ?_⟩
  rw [error_lagrangianCorrection (ofList _) rfl twoPoints twoWeights _ ok fits]
  decide +kernel

end ConstraintSet

end InequalityLayer
