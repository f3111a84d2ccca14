import InequalityLayer.Proofs.Binary64.Order
import InequalityLayer.Proofs.Binary64.Packing
import InequalityLayer.Proofs.Kkt.Verdict
import Mathlib

/-!
What an accepted test has established. The test asks whether values are above the tolerance, and is meant to
say that they are at most the tolerance (`Within`); over binary64 the two differ for a tolerance that is NaN.
Main statements: `checkFrom_satisfied_iff`, the test accepts if no constraint stops it, and
`isKkt_eq_true_iff`, which says what that means for the values and when it means `Within`.
-/
namespace InequalityLayer
set_option autoImplicit false

/-! ## Acceptance -/

section Accept

variable {α : Type} [Scalar α]

theorem Kkt.checkFrom_satisfied_iff (x duals : Assignment α) (tol : α) (i : ℕ)
    (constraints : List (Constraint α)) :
    (∃ records, (checkFrom x duals tol i constraints).outcome = .ok (.satisfied, records)) ↔
      ∀ c ∈ constraints, ¬ Stops x duals tol c := by
  induction constraints generalizing i with
  | nil => exact iff_of_true ⟨[], rfl⟩ nofun
  | cons c rest ih =>
    rw [List.forall_mem_cons, not_stops_iff, ← ih (i + 1)]
    cases hv : c.violation x with
    | error e =>
      rw [checkFrom_error i rest hv]
      simp
    | ok v =>
      cases hd : defect? tol (duals.contains c.dualKey) v with
      | some d =>
        rw [checkFrom_defect i rest hv hd]
        simp [hd]
      | none =>
        rw [checkFrom_pass i rest hv hd]
        cases later : (checkFrom x duals tol (i + 1) rest).outcome with
        | error e => simp [Except.map]
        | ok r => simp [Except.map, hd, Prod.ext_iff]

theorem ConstraintSet.isKkt_eq_true_iff_not_stops (s : ConstraintSet α) (x duals : Assignment α) (tol : α) :
    (s.isKkt x duals tol).outcome = .ok true ↔ ∀ c ∈ s.constraints, ¬ Kkt.Stops x duals tol c := by
  rw [← Kkt.checkFrom_satisfied_iff x duals tol 0]
  have answer := s.outcome_isKkt x duals { tol }
  rw [outcome_kktReport] at answer
  rw [answer]
  cases (Kkt.checkFrom x duals tol 0 s.constraints).outcome with
  | error e => simp [Except.map]
  | ok r => simp [Except.map, Prod.ext_iff]

end Accept

/-! ## Tolerances in binary64 -/

namespace Kkt

/-- The value is finite and at most the tolerance, and so is its magnitude if the dual key has an entry. -/
def Within (x duals : Assignment Float) (tol : Float) (c : Constraint Float) : Prop :=
  ∃ v, c.violation x = .ok v ∧ v.isFinite = true ∧ v ≤ tol ∧
    (duals.contains c.dualKey = true → v.abs ≤ tol)

theorem not_stops_iff_le (x duals : Assignment Float) (tol : Float) (c : Constraint Float) :
    ¬ Stops x duals tol c ↔ ∃ v, c.violation x = .ok v ∧ v.isFinite = true ∧ (v ≤ tol ∨ tol = Float.nan) ∧
      (duals.contains c.dualKey = true → v.abs ≤ tol ∨ tol = Float.nan) := by
  rw [not_stops_iff]
  refine exists_congr fun v => and_congr_right fun _ => ?_
  cases finite : v.isFinite with
  | false => simp [defect?, Scalar.isFinite, finite]
  | true =>
    have value := Binary64.not_lt_iff tol v
    have magnitude := Binary64.not_lt_iff tol v.abs
    have number : v ≠ Float.nan := Binary64.ne_nan_of_isFinite finite
    have size : v.abs ≠ Float.nan := Binary64.ne_nan_of_isFinite ((Binary64.isFinite_abs v).trans finite)
    simp only [number, size, or_false] at value magnitude
    rw [← value, ← magnitude, defect?]
    by_cases above : tol < v <;> cases duals.contains c.dualKey <;> simp [Scalar.isFinite, finite, above, Scalar.abs]

theorem within_iff (x duals : Assignment Float) (tol : Float) (c : Constraint Float) :
    Within x duals tol c ↔ ¬ Stops x duals tol c ∧ tol ≠ Float.nan := by
  rw [not_stops_iff_le]
  constructor
  · rintro ⟨v, hv, finite, value, magnitude⟩
    exact ⟨⟨v, hv, finite, .inl value, fun active => .inl (magnitude active)⟩,
      fun nan => Binary64.not_le_of_nan (.inr nan) value⟩
  · rintro ⟨⟨v, hv, finite, value, magnitude⟩, number⟩
    exact ⟨v, hv, finite, value.resolve_right number, fun active => (magnitude active).resolve_right number⟩

end Kkt

namespace ConstraintSet
open Kkt

/-- An accepted test has seen finite values only, and none above the tolerance. With a number for a tolerance
every constraint is then within it; with NaN nothing is compared. -/
theorem isKkt_eq_true_iff (s : ConstraintSet Float) (x duals : Assignment Float) (tol : Float) :
    ((s.isKkt x duals tol).outcome = .ok true ↔ ∀ c ∈ s.constraints, ∃ v, c.violation x = .ok v ∧
      v.isFinite = true ∧ (v ≤ tol ∨ tol = Float.nan) ∧
      (duals.contains c.dualKey = true → v.abs ≤ tol ∨ tol = Float.nan)) ∧
    ((∀ c ∈ s.constraints, Within x duals tol c) ↔
      (s.isKkt x duals tol).outcome = .ok true ∧ (tol ≠ Float.nan ∨ s.constraints = [])) := by
  rw [isKkt_eq_true_iff_not_stops]
  refine ⟨by simp only [not_stops_iff_le], ?_⟩
  simp only [within_iff]
  constructor
  · intro within
    refine ⟨fun c mem => (within c mem).1, ?_⟩
    rcases constraints : s.constraints with _ | ⟨c, rest⟩
    · exact .inr rfl
    · exact .inl (within c (constraints ▸ List.mem_cons_self)).2
  · rintro ⟨passed, number | none⟩ c mem
    · exact ⟨passed c mem, number⟩
    · rw [none] at mem
      cases mem

/-- With NaN for a tolerance a value far from zero is accepted, an entry among the duals or not. -/
theorem isKkt_nan_tolerance :
    ¬ ∀ (s : ConstraintSet Float) (x duals : Assignment Float) (tol : Float), s.Reachable →
      (s.isKkt x duals tol).outcome = .ok true → ∀ c ∈ s.constraints, Within x duals tol c := by
  intro within
  obtain ⟨v, _, _, le, _⟩ := within (ofList [.level ⟨7⟩ (.ok 5.0)]) ∅ (Assignment.ofList [(⟨7⟩, [1.0])]) Float.nan
    (reachable_ofList _) rfl (.level ⟨7⟩ (.ok 5.0)) List.mem_cons_self
  exact Binary64.not_le_of_nan (.inr rfl) le

end ConstraintSet

end InequalityLayer
