import InequalityLayer.Proofs.Constraint.Passes
import InequalityLayer.Proofs.Constraint.Smooth
import Mathlib

/-!
Where a smooth constraint can be evaluated. A point supplies the variable of a layout entry or lacks it, and
then there is one error to report (`Assignment.Lacks`). Stacking succeeds if every entry is supplied
(`Layout.exists_stackPoint_iff`) and otherwise reports the first that is not (`Layout.stackPoint_eq_error_iff`).
A constraint that has room for its coordinates does the same (`SmoothConstraint.exists_stack_iff`,
`SmoothConstraint.stack_eq_error_iff`), and under a multiplier so does its contribution, given room for the second
derivatives.
-/
namespace InequalityLayer
set_option autoImplicit false

variable {α : Type}

/-! ## One variable -/

namespace Assignment

/-- The variable is there with as many coordinates as the layout entry asks for. -/
def Supplies (x : Assignment α) (entry : Key × ℕ) : Prop :=
  ∃ v, x.get? entry.1 = some v ∧ v.length = entry.2

/-- The variable is missing or has another dimension, and the error that says so. -/
inductive Lacks (x : Assignment α) : Key × ℕ → ConstraintError α → Prop
  | missing {key : Key} {dim : ℕ} : x.get? key = none → Lacks x (key, dim) (.missingVariable key)
  | mismatch {key : Key} {dim : ℕ} {v : List α} : x.get? key = some v → v.length ≠ dim →
      Lacks x (key, dim) (.dimensionMismatch key dim v.length)

end Assignment

namespace Layout

variable {x : Assignment α} {entry : Key × ℕ} {L : Layout} {e : ConstraintError α}

theorem exists_pointPart_iff : (∃ v, pointPart x entry = .ok v) ↔ x.Supplies entry := by
  unfold pointPart Assignment.Supplies
  cases here : x.get? entry.1 with
  | none => simp
  | some v => by_cases length : v.length = entry.2 <;> simp [sized, length]

theorem pointPart_eq_error_iff : pointPart x entry = .error e ↔ x.Lacks entry e := by
  obtain ⟨key, dim⟩ := entry
  unfold pointPart
  constructor
  · intro failed
    cases here : x.get? key with
    | none =>
      rw [here] at failed
      cases failed
      exact .missing here
    | some v =>
      rw [here] at failed
      by_cases length : v.length = dim
      · simp [sized, length] at failed
      · simp only [sized, if_neg length, Except.error.injEq] at failed
        exact failed ▸ .mismatch here length
  · intro lacks
    cases lacks with
    | missing absent => simp [absent]
    | mismatch here length => simp [here, sized, length]

/-! ## A layout -/

/-- The first entry that the point does not supply, and the error about it. -/
def FirstLack (L : Layout) (x : Assignment α) (e : ConstraintError α) : Prop :=
  ∃ before entry after, L = before ++ entry :: after ∧ (∀ p ∈ before, x.Supplies p) ∧ x.Lacks entry e

theorem exists_stackPoint_iff : (∃ y, L.stackPoint x = .ok y) ↔ ∀ entry ∈ L, x.Supplies entry := by
  simp only [← exists_pointPart_iff, ← exists_mapM_eq_ok_iff, stackPoint]
  cases L.mapM (pointPart x) <;> simp

theorem stackPoint_eq_error_iff : L.stackPoint x = .error e ↔ L.FirstLack x e := by
  simp only [FirstLack, ← exists_pointPart_iff, ← pointPart_eq_error_iff, ← mapM_eq_error_iff, stackPoint]
  cases L.mapM (pointPart x) <;> simp

end Layout

/-! ## A constraint -/

namespace SmoothConstraint

variable [Scalar α] (c : SmoothConstraint α) {x duals : Assignment α}

/-- There is room for the coordinates, and the point supplies them. -/
def DefinedAt (x : Assignment α) : Prop :=
  c.layout.dim < Size.vectorLimit ∧ ∀ entry ∈ c.layout, x.Supplies entry

theorem exists_stack_iff : (∃ y, c.stack x = .ok y) ↔ c.DefinedAt x := by
  simp only [stack_eq_ok_iff, exists_and_left, Layout.exists_stackPoint_iff, DefinedAt]

theorem stack_eq_error_iff {e : ConstraintError α} :
    c.stack x = .error (.error e) ↔ c.layout.dim < Size.vectorLimit ∧ c.layout.FirstLack x e := by
  by_cases room : c.layout.dim < Size.vectorLimit
  · rw [stack_of_room c room, ← Layout.stackPoint_eq_error_iff]
    cases c.layout.stackPoint x <;> simp [room, Except.mapError]
  · obtain ⟨b, fault⟩ := c.stack_of_no_room (x := x) (not_lt.mp room)
    simp [fault, room]

section Weighted

variable {multiplier : α} (entry : duals.scalar? c.dualKey = some multiplier)
include entry

theorem exists_contribution_iff :
    (∃ answer, c.contribution x duals = .ok answer) ↔ c.DefinedAt x ∧ c.HasRoom := by
  rw [← exists_stack_iff]
  constructor
  · rintro ⟨answer, ok⟩
    obtain ⟨room, y, _, stacked, _⟩ := c.exists_term_of_contribution entry ok
    exact ⟨⟨y, stacked⟩, room⟩
  · rintro ⟨⟨y, stacked⟩, room⟩
    obtain ⟨term, ok, _⟩ := c.contribution_of_stack entry room stacked
    exact ⟨some term, ok⟩

/-- An error about the point comes from stacking it. -/
theorem contribution_eq_error_iff {e : ConstraintError α} :
    c.contribution x duals = .error (.error e) ↔ c.layout.dim < Size.vectorLimit ∧ c.layout.FirstLack x e := by
  rw [← stack_eq_error_iff]
  constructor
  · intro failed
    obtain own | ⟨_, _, fault⟩ := c.contribution_error_cases entry failed
    · exact own
    · cases fault
  · exact c.contribution_of_failure entry

end Weighted

end SmoothConstraint

end InequalityLayer
