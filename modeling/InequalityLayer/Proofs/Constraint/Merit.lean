import InequalityLayer.Constraint.Merit
import InequalityLayer.Proofs.Binary64.Comparison
import InequalityLayer.Proofs.Constraint.Ownership
import InequalityLayer.Proofs.Constraint.Passes
import Mathlib

/-!
The merit value as a number. Where every violation is finite, the merit is the running total of their
magnitudes (`outcome_totalViolation_eq_ok_iff`). A running total of finite binary64 numbers is never negative
and never NaN; each summand is finite, but the total is so only up to the first step whose exact sum is too
large for the format (`isFinite_runningTotal_iff`). Main statement: `totalViolation_finite_iff`.
-/
namespace InequalityLayer.ConstraintSet
set_option autoImplicit false

/-! ## The pass -/

section Pass

variable {α : Type} [Scalar α]

/-- The magnitudes of a list of numbers, added to `total` from the first on. -/
def runningTotal (total : α) (violations : List α) : α :=
  violations.foldl (fun total violation => total + Scalar.abs violation) total

variable {x : Assignment α} {c : Constraint α} (i : ℕ) (total : α) (rest : List (Constraint α))

theorem totalFrom_error {e : Failure α} (h : c.violation x = .error e) :
    totalFrom x i total (c :: rest) = ⟨[], .error e⟩ := by
  rw [totalFrom, h]
  exact Pass.lift_bind_error e _

theorem totalFrom_nonFinite {v : α} (h : c.violation x = .ok v) (infinite : Scalar.isFinite v = false) :
    totalFrom x i total (c :: rest) = ⟨[], .error (.error (.nonFiniteViolation c.dualKey v))⟩ := by
  rw [totalFrom, h, Pass.lift_bind_ok, infinite, if_neg Bool.false_ne_true]

theorem totalFrom_finite {v : α} (h : c.violation x = .ok v) (finite : Scalar.isFinite v = true) :
    totalFrom x i total (c :: rest) =
      ⟨.visited { pass := "merit", index := i, dualKey := c.dualKey, violation := some v } ::
          (totalFrom x (i + 1) (total + Scalar.abs v) rest).events,
        (totalFrom x (i + 1) (total + Scalar.abs v) rest).outcome⟩ := by
  rw [totalFrom, h, Pass.lift_bind_ok, finite, if_pos rfl, Pass.emit_bind]

theorem outcome_totalFrom_eq_ok_iff (constraints : List (Constraint α)) (t : α) :
    (totalFrom x i total constraints).outcome = .ok t ↔
      ∃ violations, (constraints.mapM fun c => c.violation x) = .ok violations ∧
        (∀ v ∈ violations, Scalar.isFinite v = true) ∧ t = runningTotal total violations := by
  induction constraints generalizing i total with
  | nil =>
    constructor
    · intro ok
      cases ok
      exact ⟨[], rfl, by simp, rfl⟩
    · rintro ⟨_, ok, _, rfl⟩
      cases ok
      rfl
  | cons c rest ih =>
    simp only [mapM_cons_eq_ok_iff]
    cases h : c.violation x with
    | error e =>
      rw [totalFrom_error i total rest h]
      simp
    | ok v =>
      cases finite : Scalar.isFinite v with
      | false =>
        rw [totalFrom_nonFinite i total rest h finite]
        simp only [reduceCtorEq, false_iff]
        rintro ⟨_, ⟨_, _, here, _, rfl⟩, all, _⟩
        cases here
        rw [all v List.mem_cons_self] at finite
        cases finite
      | true =>
        rw [totalFrom_finite i total rest h finite]
        simp only [ih]
        constructor
        · rintro ⟨others, ok, all, rfl⟩
          exact ⟨v :: others, ⟨v, others, rfl, ok, rfl⟩, List.forall_mem_cons.mpr ⟨finite, all⟩, rfl⟩
        · rintro ⟨_, ⟨_, others, here, ok, rfl⟩, all, rfl⟩
          cases here
          exact ⟨others, ok, (List.forall_mem_cons.mp all).2, rfl⟩

theorem outcome_totalViolation_eq_ok_iff (s : ConstraintSet α) (x : Assignment α) (t : α) :
    (s.totalViolation x).outcome = .ok t ↔
      ∃ violations, (s.constraints.mapM fun c => c.violation x) = .ok violations ∧
        (∀ v ∈ violations, Scalar.isFinite v = true) ∧ t = runningTotal 0.0 violations :=
  outcome_totalFrom_eq_ok_iff 0 0.0 s.constraints t

end Pass

/-! ## Running totals in binary64 -/

section Total

open Binary64

variable {total : Float} {violations : List Float}

theorem zero_le_runningTotal (nonneg : 0.0 ≤ total) (finite : ∀ v ∈ violations, v.isFinite = true) :
    0.0 ≤ runningTotal total violations := by
  induction violations generalizing total with
  | nil => exact nonneg
  | cons v rest ih =>
    rw [List.forall_mem_cons] at finite
    have magnitude := zero_le_abs (ne_nan_of_isFinite finite.1)
    exact ih (zero_le_add nonneg magnitude ((isFinite_abs v).trans finite.1)) finite.2

theorem le_runningTotal (nonneg : 0.0 ≤ total) (finite : ∀ v ∈ violations, v.isFinite = true) :
    total ≤ runningTotal total violations ∧ ∀ v ∈ violations, v.abs ≤ runningTotal total violations := by
  induction violations generalizing total with
  | nil => exact ⟨le_refl_of_ne_nan (ne_nan_of_zero_le nonneg), nofun⟩
  | cons v rest ih =>
    rw [List.forall_mem_cons] at finite
    have magnitude := zero_le_abs (ne_nan_of_isFinite finite.1)
    have bounded : v.abs.isFinite = true := (isFinite_abs v).trans finite.1
    obtain ⟨before, added⟩ := le_add nonneg magnitude bounded
    obtain ⟨later, others⟩ := ih (zero_le_add nonneg magnitude bounded) finite.2
    exact ⟨le_trans before later, List.forall_mem_cons.mpr ⟨le_trans added later, others⟩⟩

theorem isFinite_of_runningTotal (h : (runningTotal total violations).isFinite = true) :
    total.isFinite = true := by
  induction violations generalizing total with
  | nil => exact h
  | cons v rest ih => exact isFinite_left_of_add (ih h)

theorem isFinite_runningTotal_iff (nonneg : 0.0 ≤ total) (start : total.isFinite = true)
    (finite : ∀ v ∈ violations, v.isFinite = true) :
    (runningTotal total violations).isFinite = true ↔
      ∀ before v after, violations = before ++ v :: after →
        value (runningTotal total before) + |value v| < overflowBound := by
  induction violations generalizing total with
  | nil => exact iff_of_true start (by simp)
  | cons v rest ih =>
    rw [List.forall_mem_cons] at finite
    have magnitude := zero_le_abs (ne_nan_of_isFinite finite.1)
    have bounded : v.abs.isFinite = true := (isFinite_abs v).trans finite.1
    have next := zero_le_add nonneg magnitude bounded
    have step := isFinite_add_iff nonneg magnitude start bounded
    rw [value_abs] at step
    change (runningTotal (total + v.abs) rest).isFinite = true ↔ _
    constructor
    · intro last before w after split
      have fits := isFinite_of_runningTotal last
      rcases before with _ | ⟨b, before⟩
      · cases split
        exact step.mp fits
      · cases split
        exact (ih next fits finite.2).mp last before w after rfl
    · intro small
      have fits := step.mpr (small [] v rest rfl)
      exact (ih next fits finite.2).mpr fun before w after split =>
        small (v :: before) w after (congrArg (v :: ·) split)

end Total

/-! ## The merit value in binary64 -/

open Binary64

/-- A merit value is not negative and not NaN. It is finite unless some magnitude, added exactly to the
running total of those before it, reaches the bound of the format. -/
theorem totalViolation_finite_iff (s : ConstraintSet Float) (x : Assignment Float) (t : Float)
    (ok : (s.totalViolation x).outcome = .ok t) :
    0.0 ≤ t ∧ t ≠ Float.nan ∧ ∃ violations,
      (s.constraints.mapM fun c => c.violation x) = .ok violations ∧ t = runningTotal 0.0 violations ∧
      (t.isFinite = true ↔ ∀ before v after, violations = before ++ v :: after →
        value (runningTotal 0.0 before) + |value v| < overflowBound) := by
  obtain ⟨violations, answers, finite, rfl⟩ := (outcome_totalViolation_eq_ok_iff s x t).mp ok
  have zero : (0.0 : Float) ≤ 0.0 := by decide
  have nonneg := zero_le_runningTotal zero finite
  exact ⟨nonneg, ne_nan_of_zero_le nonneg, violations, answers, rfl,
    isFinite_runningTotal_iff zero (by decide) finite⟩

/-- The number `2 ^ 1023`. -/
def huge : Float := Float.ofBits 0x7fe0000000000000

def hugeTwice : ConstraintSet Float := ofList [.level ⟨7⟩ (.ok huge), .level ⟨8⟩ (.ok huge)]

theorem totalViolation_finite_iff_hugeTwice :
    ∃ t, (hugeTwice.totalViolation ∅).outcome = .ok t ∧ 0.0 ≤ t ∧ t.isFinite = false ∧
      ∃ before v after, [huge, huge] = before ++ v :: after ∧
        overflowBound ≤ value (runningTotal 0.0 before) + |value v| := by
  obtain ⟨nonneg, _, violations, answers, _, finite⟩ := totalViolation_finite_iff hugeTwice ∅ (0.0 + huge + huge) rfl
  obtain rfl : [huge, huge] = violations := Except.ok.inj answers
  have infinite : (0.0 + huge + huge).isFinite = false := by decide
  refine ⟨_, rfl, nonneg, infinite, ?_⟩
  by_contra small
  push Not at small
  rw [finite.mpr small] at infinite
  cases infinite

/-- The merit of two finite violations can be infinite. -/
theorem totalViolation_infinite :
    ¬ ∀ (s : ConstraintSet Float) (x : Assignment Float) (t : Float), s.Reachable →
      (s.totalViolation x).outcome = .ok t → t.isFinite = true ∧ 0.0 ≤ t := by
  intro usable
  have finite := (usable hugeTwice ∅ _ (reachable_ofList _) rfl).1
  exact absurd finite (by decide)

end InequalityLayer.ConstraintSet
