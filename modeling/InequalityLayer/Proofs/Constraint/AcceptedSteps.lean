import InequalityLayer.Proofs.Constraint.Curvature
import InequalityLayer.Proofs.Constraint.Expansion
import InequalityLayer.Proofs.Constraint.Linearization
import Mathlib

/-!
Steps that the two models of a constraint accept. The row and the curvature term of a smooth constraint both have its
layout (`SmoothConstraint.layout_of_linearize`, `SmoothConstraint.layout_of_contribution`), so they fail at the same
steps and for the same reason. The terms of a correction have the layouts of the constraints with a multiplier, in
order, and it fails at the first that clashes with the step (`ConstraintSet.error_smooth_eq_error_iff`). Main
statement: `ConstraintSet.steps_accepted_alike`.
-/
namespace InequalityLayer
set_option autoImplicit false

variable {α : Type}

theorem Layout.FirstClash.dimensionMismatch {L : Layout} {δ : Assignment α} {e : ConstraintError α}
    (clash : L.FirstClash δ e) : ∃ key expected actual, e = .dimensionMismatch key expected actual := by
  obtain ⟨_, entry, _, _, _, d, _, _, rfl⟩ := clash
  exact ⟨entry.1, entry.2, d.length, rfl⟩

variable [Scalar α]

/-! ## One constraint -/

namespace SmoothConstraint

variable {c : SmoothConstraint α} {x duals : Assignment α}

theorem layout_of_linearize {J : JacobianFactor α} (linear : c.linearize x = .ok (.jacobian J)) :
    J.layout = c.layout := by
  rw [linearize_eq] at linear
  cases stacked : c.stack x with
  | error e =>
    rw [stacked] at linear
    cases linear
  | ok y =>
    rw [stacked] at linear
    cases linear
    exact (isRowAt_rowAt (c.length_of_stack stacked)).layout

theorem layout_of_contribution {H : HessianFactor α} (term : c.contribution x duals = .ok (some H)) :
    H.layout = c.layout := by
  cases entry : duals.scalar? c.dualKey with
  | none =>
    rw [c.contribution_of_none entry] at term
    cases term
  | some multiplier =>
    obtain ⟨_, _, K, _, same, made⟩ := c.exists_term_of_contribution entry term
    rw [Option.some.inj same, made.layout]

end SmoothConstraint

/-! ## A set -/

namespace ConstraintSet

variable {s : ConstraintSet α} {smooth : List (SmoothConstraint α)} {x duals δ : Assignment α}
  {m : LinearizedSet α} {L : LagrangianCorrection α} {e : ConstraintError α}

/-- Entry for entry, a linearized set has the dual keys and layouts of the constraints. -/
theorem shapes_linearize_smooth (constraints : s.constraints = smooth.map SmoothConstraint.toConstraint)
    (linear : (s.linearize x).outcome = .ok m) :
    m.inequalities.map (fun q => (q.dualKey, q.jacobian.layout)) = smooth.map fun f => (f.dualKey, f.layout) := by
  have rows := (outcome_linearize_eq_ok_iff s m).mp linear
  rw [constraints, List.forall₂_map_left_iff] at rows
  rw [← List.forall₂_eq_eq_eq, List.forall₂_map_left_iff, List.forall₂_map_right_iff]
  refine rows.flip.imp fun q f row => ?_
  obtain ⟨y, stacked, rfl⟩ := f.exists_stack_of_inequality row
  rw [(SmoothConstraint.isRowAt_rowAt (f.length_of_stack stacked)).layout]

theorem error_smooth_eq_error_iff
    (answers : List.Forall₂ (fun f term => f.contribution x duals = .ok (some term)) (weighted duals smooth) L.terms) :
    L.error δ = .error e ↔ ∃ before f after, smooth = before ++ f :: after ∧
      (∀ g ∈ before, (duals.scalar? g.dualKey).isSome = true → ∀ entry ∈ g.layout, δ.Suits entry) ∧
      (duals.scalar? f.dualKey).isSome = true ∧ f.layout.FirstClash δ e := by
  have over_layouts : L.error δ = .error e ↔ ∃ before l after, L.terms.map HessianFactor.layout = before ++ l :: after ∧
      (∀ d ∈ before, ∀ entry ∈ d, δ.Suits entry) ∧ Layout.FirstClash l δ e := by
    rw [first_of_map, LagrangianCorrection.error_eq_error_iff]
    simp only [HessianFactor.exists_error_iff, HessianFactor.error_eq_error_iff]
  rw [over_layouts, layout_terms answers, first_of_map, weighted, first_of_filter]

/-- The row of a smooth constraint and its term under a multiplier fail at the same steps, with the same report of
one variable whose dimension the step has wrong. So the correction of a set of such constraints fails exactly where
the linearized set has an entry that fails and whose constraint has a multiplier, and reports what the first of these
entries does. -/
theorem steps_accepted_alike (s : ConstraintSet α) (x duals δ : Assignment α) :
    (∀ (c : SmoothConstraint α) J H, c.linearize x = .ok (.jacobian J) → c.contribution x duals = .ok (some H) →
      ∀ e, (J.multiply δ = .error e ↔ H.error δ = .error e) ∧
        (H.error δ = .error e → ∃ key expected actual, e = .dimensionMismatch key expected actual)) ∧
    ∀ (smooth : List (SmoothConstraint α)) m L, s.constraints = smooth.map SmoothConstraint.toConstraint →
      (s.linearize x).outcome = .ok m → (s.lagrangianCorrection x duals).outcome = .ok L →
      ∀ e, L.error δ = .error e ↔ ∃ i q, m.get? i = some q ∧
        (∀ j p, j < i → m.get? j = some p → (duals.scalar? p.dualKey).isSome = true → ∃ v, p.product δ = .ok v) ∧
        (duals.scalar? q.dualKey).isSome = true ∧ q.product δ = .error e := by
  constructor
  · intro c J H linear term e
    rw [JacobianFactor.multiply_eq_error_iff_firstClash, HessianFactor.error_eq_error_iff,
      SmoothConstraint.layout_of_linearize linear, SmoothConstraint.layout_of_contribution term]
    exact ⟨Iff.rfl, fun clash => clash.dimensionMismatch⟩
  · intro smooth m L constraints linear correction e
    let fine (shape : Key × Layout) : Prop :=
      (duals.scalar? shape.1).isSome = true → ∀ entry ∈ shape.2, δ.Suits entry
    let faulty (shape : Key × Layout) : Prop :=
      (duals.scalar? shape.1).isSome = true ∧ shape.2.FirstClash δ e
    have over_constraints : L.error δ = .error e ↔ ∃ before shape after,
        (smooth.map fun f => (f.dualKey, f.layout)) = before ++ shape :: after ∧
          (∀ d ∈ before, fine d) ∧ faulty shape := by
      rw [first_of_map]
      exact error_smooth_eq_error_iff ((lagrangianCorrection_smooth_eq_ok_iff constraints L).mp correction)
    rw [over_constraints, ← shapes_linearize_smooth constraints linear, first_of_map]
    simp only [fine, faulty, ← LinearInequality.exists_product_iff, ← LinearInequality.product_eq_error_iff]
    exact first_iff_getElem?

def threeFlat : List (SmoothConstraint ℚ) :=
  [flat [(⟨3⟩, 1)] ⟨7⟩, flat [(⟨2⟩, 2), (⟨3⟩, 1)] ⟨8⟩, flat [(⟨3⟩, 1)] ⟨9⟩]

def threeFlatSet : ConstraintSet ℚ := ofList (threeFlat.map SmoothConstraint.toConstraint)

/-- The first constraint has an entry without a multiplier. -/
def lastTwo : Assignment ℚ := .ofList [(⟨7⟩, []), (⟨8⟩, [2]), (⟨9⟩, [1])]

/-- Both variables are moved in a wrong number of coordinates. -/
def misshapen : Assignment ℚ := .ofList [(⟨2⟩, [1]), (⟨3⟩, [1, 1])]

theorem steps_accepted_alike_misshapen :
    (∃ J H, threeFlat[1].linearize supplied = .ok (.jacobian J) ∧
      threeFlat[1].contribution supplied lastTwo = .ok (some H) ∧
      J.multiply misshapen = .error (.dimensionMismatch ⟨2⟩ 2 1) ∧
      H.error misshapen = .error (.dimensionMismatch ⟨2⟩ 2 1)) ∧
    ∃ m L, (threeFlatSet.linearize supplied).outcome = .ok m ∧
      (threeFlatSet.lagrangianCorrection supplied lastTwo).outcome = .ok L ∧
      (∃ q, m.get? 0 = some q ∧ q.product misshapen = .error (.dimensionMismatch ⟨3⟩ 1 2)) ∧
      L.error misshapen = .error (.dimensionMismatch ⟨2⟩ 2 1) := by
  obtain ⟨alike, first⟩ := steps_accepted_alike threeFlatSet supplied lastTwo misshapen
  constructor
  · obtain ⟨J, linear⟩ : ∃ J, threeFlat[1].linearize supplied = .ok (.jacobian J) := ⟨_, rfl⟩
    obtain ⟨H, term⟩ : ∃ H, threeFlat[1].contribution supplied lastTwo = .ok (some H) := ⟨_, rfl⟩
    have fails : J.multiply misshapen = .error (.dimensionMismatch ⟨2⟩ 2 1) := by
      cases linear
      rfl
    exact ⟨J, H, linear, term, fails, (alike _ J H linear term _).1.mp fails⟩
  · obtain ⟨m, linear⟩ : ∃ m, (threeFlatSet.linearize supplied).outcome = .ok m := ⟨_, rfl⟩
    obtain ⟨L, correction⟩ : ∃ L, (threeFlatSet.lagrangianCorrection supplied lastTwo).outcome = .ok L := ⟨_, rfl⟩
    refine ⟨m, L, linear, correction, ?_, (first threeFlat m L rfl linear correction _).mpr ?_⟩
    · cases linear
      exact ⟨_, rfl, rfl⟩
    · cases linear
      refine ⟨1, _, rfl, fun j p below at_j weighted => ?_, rfl, rfl⟩
      obtain rfl : j = 0 := by omega
      cases at_j
      cases weighted

end ConstraintSet

end InequalityLayer
