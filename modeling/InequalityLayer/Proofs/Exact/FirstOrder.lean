import InequalityLayer.Proofs.Constraint.Linearization
import InequalityLayer.Proofs.Exact.LocalModel
import InequalityLayer.Proofs.Linear.Feasibility
import Mathlib

/-!
The linearized set as a first-order model, over the rationals. `Assignment.coordinates` stacks without asking
for lengths, and agrees with both ways of stacking where they succeed (`coordinates_of_stackPoint`,
`stackStep_of_fits`). With it `firstOrder` is `g(y) + ∇g(y)·d` written out, and entry `i` of a linearized set has
this value for constraint `i`: `linearize_firstOrder`.
-/
namespace InequalityLayer
set_option autoImplicit false
open Finset

/-! ## Coordinates -/

/-- The coordinates of all variables of a layout, one after the other; zeros for a variable without an entry. -/
def Assignment.coordinates (a : Assignment ℚ) (L : Layout) : List ℚ :=
  L.flatMap fun entry => (a.get? entry.1).getD (List.replicate entry.2 0)

namespace Layout

/-- A step has coordinates for a variable of the layout as often as the layout says. -/
def Fits (L : Layout) (δ : Assignment ℚ) : Prop :=
  ∀ entry ∈ L, ∀ d ∈ δ.get? entry.1, d.length = entry.2

instance (L : Layout) (δ : Assignment ℚ) : Decidable (L.Fits δ) :=
  inferInstanceAs (Decidable (∀ entry ∈ L, ∀ d ∈ δ.get? entry.1, d.length = entry.2))

theorem coordinates_of_stackPoint {L : Layout} {x : Assignment ℚ} {y : List ℚ} (point : L.stackPoint x = .ok y) :
    y = x.coordinates L := by
  induction L generalizing y with
  | nil =>
    cases point
    rfl
  | cons entry L ih =>
    obtain ⟨key, dim⟩ := entry
    obtain ⟨first, others, here, _, rest, rfl⟩ := stackPoint_cons_eq_ok_iff.mp point
    rw [Assignment.coordinates, List.flatMap_cons, here, ih rest]
    rfl

theorem stackStep_of_fits {L : Layout} {δ : Assignment ℚ} (fits : L.Fits δ) :
    L.stackStep δ = .ok (δ.coordinates L) := by
  induction L with
  | nil => rfl
  | cons entry L ih =>
    obtain ⟨key, dim⟩ := entry
    obtain ⟨here, later⟩ := List.forall_mem_cons.mp fits
    refine stackStep_cons_eq_ok_iff.mpr ⟨_, _, ?_, ih later, rfl⟩
    unfold stepPart
    cases move : δ.get? key with
    | none => simp [move, zero_rat]
    | some d => exact (sized_eq_ok_iff d).mpr ⟨here d move, by simp [move]⟩

end Layout

/-! ## One constraint -/

namespace SmoothConstraint

/-- The value at a point plus the gradient there times the step, both stacked. -/
def firstOrder (c : SmoothConstraint ℚ) (x δ : Assignment ℚ) : ℚ :=
  c.value (x.coordinates c.layout) +
    ∑ j ∈ range c.layout.dim, (c.gradientAt (x.coordinates c.layout)).getD j 0 * (δ.coordinates c.layout).getD j 0

theorem error_firstOrder (c : SmoothConstraint ℚ) {x δ : Assignment ℚ} {q : LinearInequality ℚ}
    (linear : c.toConstraint.inequality x = .ok q) (fits : c.layout.Fits δ) :
    q.error δ = .ok (c.firstOrder x δ) := by
  obtain ⟨y, stacked, rfl⟩ := c.exists_stack_of_inequality linear
  obtain rfl : y = x.coordinates c.layout := Layout.coordinates_of_stackPoint (c.stack_eq_ok_iff.mp stacked).2
  have step := Layout.stackStep_of_fits fits
  have row := c.error_row (c.length_of_stack stacked) step
  rwa [dot_eq_sum _ (Layout.length_stackStep step)] at row

end SmoothConstraint

/-! ## A set of constraints -/

namespace ConstraintSet

/-- Where a set of smooth constraints can be linearized, entry `i` has the value of the first-order model of
constraint `i`, and a step is accepted if none of these values is above the tolerance. -/
theorem linearize_firstOrder (s : ConstraintSet ℚ) {smooth : List (SmoothConstraint ℚ)}
    (constraints : s.constraints = smooth.map SmoothConstraint.toConstraint) (x δ : Assignment ℚ) (tol : ℚ)
    {m : LinearizedSet ℚ} (linear : (s.linearize x).outcome = .ok m) (fits : ∀ f ∈ smooth, f.layout.Fits δ) :
    List.Forall₂ (fun f q => q.error δ = .ok (f.firstOrder x δ)) smooth m.inequalities ∧
      m.isFeasible δ tol = .ok (decide (∀ f ∈ smooth, f.firstOrder x δ ≤ tol)) := by
  have rows := (outcome_linearize_eq_ok_iff s m).mp linear
  rw [constraints, List.forall₂_map_left_iff] at rows
  have models : List.Forall₂ (fun f q => q.error δ = .ok (f.firstOrder x δ)) smooth m.inequalities :=
    (List.forall₂_and_left _ _).mpr ⟨fits, rows⟩ |>.imp fun f _ h => f.error_firstOrder h.2 h.1
  refine ⟨models, ?_⟩
  rw [LinearizedSet.isFeasible, LinearizedSet.allWithin_of_errors tol (List.forall₂_map_left_iff.mpr models)]
  simp only [List.forall_mem_map, not_lt]

/-- The square of the sum of all coordinates, at most `limit`. -/
def squareOfSum (layout : Layout) (dualKey : Key) (limit : ℚ) : SmoothConstraint ℚ where
  layout
  dualKey
  value y := y.sum * y.sum - limit
  gradient y _ := y.map fun _ => 2 * y.sum

/-- A layout with a variable in it twice, and one with a variable that has no coordinates. -/
def twoSquares : List (SmoothConstraint ℚ) :=
  [squareOfSum [(⟨1⟩, 2), (⟨2⟩, 1), (⟨1⟩, 2)] ⟨7⟩ 100, squareOfSum [(⟨3⟩, 0), (⟨2⟩, 1)] ⟨8⟩ 9]

def onSquares : Assignment ℚ := .ofList [(⟨1⟩, [1, 2]), (⟨2⟩, [3]), (⟨3⟩, [])]

/-- A step that leaves the second variable out. -/
def alongFirst : Assignment ℚ := .ofList [(⟨1⟩, [1, -1 / 2]), (⟨3⟩, [])]

theorem linearize_firstOrder_twoSquares :
    ∃ p q, ((ofList (twoSquares.map SmoothConstraint.toConstraint)).linearize onSquares).outcome = .ok ⟨[p, q]⟩ ∧
      (∀ f ∈ twoSquares, f.layout.Fits alongFirst) ∧ p.error alongFirst = .ok (81 - 100 + 18) ∧
      q.error alongFirst = .ok (9 - 9) ∧ LinearizedSet.isFeasible ⟨[p, q]⟩ alongFirst 0 = .ok true := by
  have linear : ∃ p q, ((ofList (twoSquares.map SmoothConstraint.toConstraint)).linearize onSquares).outcome =
      .ok ⟨[p, q]⟩ := ⟨_, _, rfl⟩
  obtain ⟨p, q, linear⟩ := linear
  have fits : ∀ f ∈ twoSquares, f.layout.Fits alongFirst := by decide
  obtain ⟨models, accepted⟩ := linearize_firstOrder (ofList _) rfl onSquares alongFirst 0 linear fits
  have values : twoSquares.map (SmoothConstraint.firstOrder · onSquares alongFirst) = [81 - 100 + 18, 9 - 9] := by
    decide +kernel
  have within : ∀ f ∈ twoSquares, f.firstOrder onSquares alongFirst ≤ 0 := by decide +kernel
  have errors : List.Forall₂ (fun v q => q.error alongFirst = .ok v) [81 - 100 + 18, 9 - 9] [p, q] :=
    values ▸ List.forall₂_map_left_iff.mpr models
  obtain ⟨first, rest⟩ := List.forall₂_cons.mp errors
  obtain ⟨second, _⟩ := List.forall₂_cons.mp rest
  exact ⟨p, q, linear, fits, first, second, accepted.trans (congrArg _ (decide_eq_true within))⟩

end ConstraintSet

end InequalityLayer
