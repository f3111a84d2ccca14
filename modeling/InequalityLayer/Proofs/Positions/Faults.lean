import InequalityLayer.Proofs.Constraint.Domain
import InequalityLayer.Proofs.Constraint.Merit
import InequalityLayer.Proofs.Kkt.Verdict
import InequalityLayer.Proofs.Positions.Factors
import InequalityLayer.Proofs.Positions.Smooth
import Mathlib

/-!
What can go wrong with a set of smooth constraints. A pass fails only where one of its constraints does, or, for
the merit value, where a violation is not finite (`ConstraintSet.failsOnly_of_stack`); and a smooth constraint
fails only where its coordinates cannot be stacked, or where there is no room for its second derivatives. So with
that room every failure is an error about the point, and no failure is ever about the shape of a constraint. Main
statement:
`ConstraintSet.runs_without_fault`, which adds that the positions every evaluation counts are there.
-/
namespace InequalityLayer
set_option autoImplicit false

variable {α β γ : Type}

/-! ## Kinds of failures -/

namespace Failure

/-- A variable is missing or has another dimension, or a violation is not finite. -/
def AboutPoint : Failure α → Prop
  | .error (.missingVariable _) | .error (.dimensionMismatch ..) | .error (.nonFiniteViolation ..) => True
  | _ => False

/-- A first-order model is not a row, or is several. -/
def AboutShape : Failure α → Prop
  | .error (.malformed ..) | .error (.nonScalar ..) => True
  | _ => False

theorem AboutPoint.not_aboutShape {e : Failure α} (point : e.AboutPoint) : ¬ e.AboutShape := by
  cases e with
  | fault b => exact nofun
  | error reported => cases reported <;> simp_all [AboutPoint, AboutShape]

end Failure

/-- Every failure an outcome can be is an allowed one. -/
def FailsOnly (allowed : Failure α → Prop) (r : Outcome α β) : Prop := ∀ e, r = .error e → allowed e

variable {allowed : Failure α → Prop}

theorem FailsOnly.map {r : Outcome α β} (h : FailsOnly allowed r) (f : β → γ) : FailsOnly allowed (r.map f) := by
  cases r with
  | error e => exact fun _ same => h _ (by cases same; rfl)
  | ok b => exact nofun

theorem failsOnly_mapM {f : β → Outcome α γ} {l : List β} (h : ∀ b ∈ l, FailsOnly allowed (f b)) :
    FailsOnly allowed (l.mapM f) := by
  intro e failed
  obtain ⟨before, b, after, rfl, _, own⟩ := mapM_eq_error_iff.mp failed
  exact h b (by simp) e own

/-! ## Smooth constraints -/

namespace SmoothConstraint

variable [Scalar α] {c : SmoothConstraint α} {x : Assignment α}

theorem stack_aboutPoint (room : c.layout.dim < Size.vectorLimit) :
    FailsOnly Failure.AboutPoint (c.stack x) := by
  intro e failed
  rw [stack_of_room c room] at failed
  cases stacked : c.layout.stackPoint x with
  | ok y =>
    rw [stacked] at failed
    cases failed
  | error own =>
    rw [stacked] at failed
    cases failed
    obtain ⟨_, _, _, _, _, lacks⟩ := Layout.stackPoint_eq_error_iff.mp stacked
    cases lacks <;> trivial

/-- Without room for the coordinates there is a fault, which is not about a shape either. -/
theorem stack_not_aboutShape : FailsOnly (fun e => ¬ e.AboutShape) (c.stack x) := by
  intro e failed
  by_cases room : c.layout.dim < Size.vectorLimit
  · exact (stack_aboutPoint room e failed).not_aboutShape
  · obtain ⟨b, fault⟩ := c.stack_of_no_room (x := x) (not_lt.mp room)
    rw [fault] at failed
    cases failed
    exact nofun

section Answers

variable (h : FailsOnly allowed (c.stack x))
include h

theorem failsOnly_violation : FailsOnly allowed (c.violation x) := by
  rw [violation_eq]
  exact h.map _

theorem failsOnly_linearize : FailsOnly allowed (c.linearize x) := by
  rw [linearize_eq]
  exact h.map _

theorem failsOnly_inequality : FailsOnly allowed (c.toConstraint.inequality x) := by
  rw [inequality_eq]
  exact h.map _

/-- Where faults are not allowed, there has to be room for the second derivatives. -/
theorem failsOnly_contribution (room : ¬ c.HasRoom → ∀ b, allowed (.fault b)) (duals : Assignment α) :
    FailsOnly allowed (c.contribution x duals) := by
  intro e failed
  cases entry : duals.scalar? c.dualKey with
  | none =>
    rw [c.contribution_of_none entry] at failed
    cases failed
  | some multiplier =>
    obtain own | ⟨large, b, rfl⟩ := c.contribution_error_cases entry failed
    · exact h e own
    · exact room large b

end Answers

end SmoothConstraint

/-! ## Passes -/

namespace ConstraintSet

variable [Scalar α]

theorem failsOnly_checkFrom {x : Assignment α} (duals : Assignment α) (tol : α) (i : ℕ)
    {constraints : List (Constraint α)} (h : ∀ c ∈ constraints, FailsOnly allowed (c.violation x)) :
    FailsOnly allowed (Kkt.checkFrom x duals tol i constraints).outcome := by
  induction constraints generalizing i with
  | nil => exact nofun
  | cons c rest ih =>
    obtain ⟨first, others⟩ := List.forall_mem_cons.mp h
    cases value : c.violation x with
    | error e =>
      rw [Kkt.checkFrom_error i rest value]
      exact fun _ same => first _ (by cases same; exact value)
    | ok v =>
      cases defect : Kkt.defect? tol (duals.contains c.dualKey) v with
      | some d =>
        rw [Kkt.checkFrom_defect i rest value defect]
        exact nofun
      | none =>
        rw [Kkt.checkFrom_pass i rest value defect]
        exact (ih (i + 1) others).map _

theorem failsOnly_totalFrom {x : Assignment α} (infinite : ∀ k v, allowed (.error (.nonFiniteViolation k v)))
    (i : ℕ) (total : α) {constraints : List (Constraint α)}
    (h : ∀ c ∈ constraints, FailsOnly allowed (c.violation x)) :
    FailsOnly allowed (totalFrom x i total constraints).outcome := by
  induction constraints generalizing i total with
  | nil => exact nofun
  | cons c rest ih =>
    obtain ⟨first, others⟩ := List.forall_mem_cons.mp h
    cases value : c.violation x with
    | error e =>
      rw [totalFrom_error i total rest value]
      exact fun _ same => first _ (by cases same; exact value)
    | ok v =>
      cases finite : Scalar.isFinite v with
      | false =>
        rw [totalFrom_nonFinite i total rest value finite]
        exact fun _ same => by cases same; exact infinite _ _
      | true =>
        rw [totalFrom_finite i total rest value finite]
        exact ih (i + 1) _ others

/-- Every failure of a pass over the set is an allowed one. -/
structure FailsOnly (allowed : Failure α → Prop) (s : ConstraintSet α) (x duals : Assignment α)
    (options : Kkt.Options α) : Prop where
  linearize : InequalityLayer.FailsOnly allowed (s.linearize x).outcome
  kktReport : InequalityLayer.FailsOnly allowed (s.kktReport x duals options).outcome
  lagrangianCorrection : InequalityLayer.FailsOnly allowed (s.lagrangianCorrection x duals).outcome
  totalViolation : InequalityLayer.FailsOnly allowed (s.totalViolation x).outcome

variable {s : ConstraintSet α} {smooth : List (SmoothConstraint α)} {x : Assignment α}

theorem failsOnly_of_stack (made : s.constraints = smooth.map SmoothConstraint.toConstraint)
    (infinite : ∀ k v, allowed (.error (.nonFiniteViolation k v)))
    (h : ∀ f ∈ smooth, InequalityLayer.FailsOnly allowed (f.stack x))
    (room : ∀ f ∈ smooth, ¬ f.HasRoom → ∀ b, allowed (.fault b)) (duals : Assignment α) (options : Kkt.Options α) :
    s.FailsOnly allowed x duals options := by
  have each {p : Constraint α → Prop} (answers : ∀ f ∈ smooth, p f.toConstraint) : ∀ c ∈ s.constraints, p c := by
    rw [made]
    exact List.forall_mem_map.mpr answers
  have violation : ∀ c ∈ s.constraints, InequalityLayer.FailsOnly allowed (c.violation x) :=
    each fun f mem => SmoothConstraint.failsOnly_violation (h f mem)
  constructor
  · rw [outcome_linearize]
    exact (failsOnly_mapM (each fun f mem => SmoothConstraint.failsOnly_inequality (h f mem))).map _
  · rw [outcome_kktReport]
    exact (failsOnly_checkFrom duals options.tol 0 violation).map _
  · rw [outcome_lagrangianCorrection]
    refine (failsOnly_mapM fun c active => ?_).map _
    exact each (p := fun c => InequalityLayer.FailsOnly allowed (c.contribution x duals))
      (fun f mem => SmoothConstraint.failsOnly_contribution (h f mem) (room f mem) duals) c
      (List.mem_filter.mp active).1
  · exact failsOnly_totalFrom infinite 0 0.0 violation

/-- A pass over smooth constraints never blames a shape, and linear models are evaluated at positions they have,
whichever models they are; so are the constraints themselves, whose answers by position are the ones without. Where
a square matrix over the variables of each constraint is a vector, the sizes are in range too, and every failure of
a constraint or of a pass is an error about the point. -/
theorem runs_without_fault (made : s.constraints = smooth.map SmoothConstraint.toConstraint)
    (x duals δ : Assignment α) (options : Kkt.Options α) (tol : α) :
    s.FailsOnly (fun e => ¬ e.AboutShape) x duals options ∧
    (∀ linear : LinearizedSet α,
      ByPosition.isFeasible δ linear tol = (linear.isFeasible δ tol).mapError .error ∧
      ∀ q ∈ linear.inequalities,
        ByPosition.entryAt q.jacobian.rhs 0 = .ok q.bound ∧
        ByPosition.product q δ = (q.product δ).mapError .error ∧
        ByPosition.error q δ = (q.error δ).mapError .error ∧
        ByPosition.errorVector q.jacobian δ = (q.jacobian.errorVector δ).mapError .error) ∧
    (∀ correction : LagrangianCorrection α,
      ByPosition.correctionError correction δ = (correction.error δ).mapError .error ∧
      ∀ term ∈ correction.terms, ByPosition.formError term δ = (term.error δ).mapError .error) ∧
    (∀ f ∈ smooth, ByPosition.constraint f = f.toConstraint) ∧
    ((∀ f ∈ smooth, f.HasRoom) →
      s.FailsOnly Failure.AboutPoint x duals options ∧
      ∀ f ∈ smooth, InequalityLayer.FailsOnly Failure.AboutPoint (f.violation x) ∧
        InequalityLayer.FailsOnly Failure.AboutPoint (f.linearize x) ∧
        InequalityLayer.FailsOnly Failure.AboutPoint (f.contribution x duals)) := by
  refine ⟨?_, fun linear => ?_, fun correction => ?_, fun f _ => ByPosition.constraint_eq f,
    fun room => ⟨?_, fun f mem => ?_⟩⟩
  · exact failsOnly_of_stack made (fun _ _ => nofun) (fun f _ => SmoothConstraint.stack_not_aboutShape)
      (fun _ _ _ _ => nofun) duals options
  · exact ⟨ByPosition.isFeasible_eq δ linear tol, fun q _ => ⟨ByPosition.entryAt_rhs q, ByPosition.product_eq q δ,
      ByPosition.error_eq q δ, ByPosition.errorVector_eq q.jacobian δ⟩⟩
  · exact ⟨ByPosition.correctionError_eq correction δ, fun term _ => ByPosition.formError_eq term δ⟩
  · exact failsOnly_of_stack made (fun _ _ => trivial)
      (fun f mem => SmoothConstraint.stack_aboutPoint (room f mem).dim_lt)
      (fun f mem large => absurd (room f mem) large) duals options
  · have stack := SmoothConstraint.stack_aboutPoint (x := x) (room f mem).dim_lt
    exact ⟨SmoothConstraint.failsOnly_violation stack, SmoothConstraint.failsOnly_linearize stack,
      SmoothConstraint.failsOnly_contribution stack (fun large => absurd (room f mem) large) duals⟩

/-- One variable twice and another without coordinates; second derivatives are differences. -/
def twice : SmoothConstraint ℚ where
  layout := [(⟨1⟩, 1), (⟨1⟩, 1), (⟨2⟩, 0)]
  dualKey := ⟨7⟩
  value y := y.sum - 1
  gradient y _ := y

/-- No variable at all, and a function for the second derivatives that writes too much. -/
def noVariable : SmoothConstraint ℚ where
  layout := []
  dualKey := ⟨8⟩
  value _ := -1
  gradient _ _ := []
  hessian? := some fun _ _ => [1]

theorem runs_without_fault_twice :
    (ofList [twice.toConstraint, noVariable.toConstraint]).constraints =
      [twice, noVariable].map SmoothConstraint.toConstraint ∧
    (∀ f ∈ [twice, noVariable], f.HasRoom) ∧
    (ofList [twice.toConstraint, noVariable.toConstraint]).FailsOnly Failure.AboutPoint
      (.ofList [(⟨1⟩, [2])]) (.ofList [(⟨7⟩, [1]), (⟨8⟩, [3])]) {} ∧
    ByPosition.constraint twice = twice.toConstraint := by
  have made : (ofList [twice.toConstraint, noVariable.toConstraint]).constraints =
    [twice, noVariable].map SmoothConstraint.toConstraint := rfl
  have room : ∀ f ∈ [twice, noVariable], f.HasRoom := List.forall_mem_cons.mpr
    ⟨show 2 * 2 < Size.vectorLimit by decide, List.forall_mem_singleton.mpr (show 0 * 0 < Size.vectorLimit by decide)⟩
  obtain ⟨_, _, _, answers, runs⟩ :=
    runs_without_fault made (.ofList [(⟨1⟩, [2])]) (.ofList [(⟨7⟩, [1]), (⟨8⟩, [3])]) ∅ {} 0
  exact ⟨made, room, (runs room).1, answers twice List.mem_cons_self⟩

end ConstraintSet

end InequalityLayer
