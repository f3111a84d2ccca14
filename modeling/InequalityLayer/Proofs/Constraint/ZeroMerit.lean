import InequalityLayer.Proofs.Binary64.Zero
import InequalityLayer.Proofs.Constraint.Merit
import Mathlib

/-!
Merit values of zero. A running total of magnitudes is at least each of them, rounded or not, so none is lost however
small it is: the total is zero only if all are (`runningTotal_eq_zero_iff`). It never becomes the negative zero either
(`runningTotal_ne_negZero`), and over the rationals it is the sum of the magnitudes (`runningTotal_rat`). Main statement:
`totalViolation_eq_zero_iff`.
-/
namespace InequalityLayer.ConstraintSet
set_option autoImplicit false

open Binary64

/-! ## Running totals -/

theorem runningTotal_ne_negZero {total : Float} (start : total ≠ -0.0) (violations : List Float) :
    runningTotal total violations ≠ -0.0 := by
  induction violations generalizing total with
  | nil => exact start
  | cons v rest ih => exact ih fun sum => start (add_eq_negZero sum).1

theorem runningTotal_zeros {violations : List Float} (zeros : ∀ v ∈ violations, IsZero v) :
    runningTotal 0.0 violations = 0.0 := by
  induction violations with
  | nil => rfl
  | cons v rest ih =>
    obtain ⟨first, others⟩ := List.forall_mem_cons.mp zeros
    have unchanged : (0.0 : Float) + v.abs = 0.0 := add_isZero (isZero_abs first) (by decide)
    calc runningTotal 0.0 (v :: rest) = runningTotal (0.0 + v.abs) rest := rfl
      _ = runningTotal 0.0 rest := by rw [unchanged]
      _ = 0.0 := ih others

theorem runningTotal_eq_zero_iff {violations : List Float} (finite : ∀ v ∈ violations, v.isFinite = true) :
    runningTotal 0.0 violations = 0.0 ↔ ∀ v ∈ violations, IsZero v := by
  refine ⟨fun zero v mem => ?_, runningTotal_zeros⟩
  have magnitude := (le_runningTotal (by decide : (0.0 : Float) ≤ 0.0) finite).2 v mem
  rw [zero, le_iff_value_le ((isFinite_abs v).trans (finite v mem)) (by decide), value_abs] at magnitude
  exact (value_eq_zero_iff (finite v mem)).mp (abs_nonpos_iff.mp magnitude)

theorem abs_rat (v : ℚ) : Scalar.abs v = |v| := by
  obtain nonneg | nonpos := le_total 0 v
  · exact (Rat.abs_of_nonneg nonneg).trans (abs_of_nonneg nonneg).symm
  · exact (Rat.abs_of_nonpos nonpos).trans (abs_of_nonpos nonpos).symm

theorem runningTotal_rat (total : ℚ) (violations : List ℚ) :
    runningTotal total violations = total + (violations.map fun v => |v|).sum := by
  induction violations generalizing total with
  | nil => exact (add_zero total).symm
  | cons v rest ih =>
    calc runningTotal total (v :: rest) = runningTotal (total + Scalar.abs v) rest := rfl
      _ = total + |v| + (rest.map fun v => |v|).sum := by rw [ih, abs_rat]
      _ = total + ((v :: rest).map fun v => |v|).sum := by rw [add_assoc, List.map_cons, List.sum_cons]

/-! ## Merit values -/

/-- In binary64 the merit is zero exactly if every constraint has a value and each value is a zero, of either sign; it is
never NaN, never negative and never the negative zero. Over the rationals it is the sum of the magnitudes. -/
theorem totalViolation_eq_zero_iff :
    (∀ (s : ConstraintSet Float) (x : Assignment Float),
      ((s.totalViolation x).outcome = .ok 0.0 ↔ ∀ c ∈ s.constraints, ∃ v, c.violation x = .ok v ∧ IsZero v) ∧
      ∀ t, (s.totalViolation x).outcome = .ok t → t ≠ Float.nan ∧ 0.0 ≤ t ∧ t ≠ -0.0) ∧
    ∀ (s : ConstraintSet ℚ) (x : Assignment ℚ) (t : ℚ), (s.totalViolation x).outcome = .ok t ↔
      ∃ violations, List.Forall₂ (fun c v => c.violation x = .ok v) s.constraints violations ∧
        t = (violations.map fun v => |v|).sum := by
  refine ⟨fun s x => ⟨?_, fun t ok => ?_⟩, fun s x t => ?_⟩
  · rw [outcome_totalViolation_eq_ok_iff, ← exists_mapM_forall_iff]
    refine exists_congr fun violations => and_congr_right fun _ => ?_
    constructor
    · rintro ⟨finite, zero⟩
      exact (runningTotal_eq_zero_iff finite).mp zero.symm
    · exact fun zeros => ⟨fun v mem => (zeros v mem).isFinite, (runningTotal_zeros zeros).symm⟩
  · obtain ⟨violations, _, finite, rfl⟩ := (outcome_totalViolation_eq_ok_iff s x t).mp ok
    have nonneg := zero_le_runningTotal (by decide : (0.0 : Float) ≤ 0.0) finite
    exact ⟨ne_nan_of_zero_le nonneg, nonneg, runningTotal_ne_negZero (by decide) violations⟩
  · rw [outcome_totalViolation_eq_ok_iff]
    simp only [mapM_eq_ok_iff, isFinite_rat, runningTotal_rat, zero_rat, zero_add, implies_true, true_and]

/-- The number `2 ^ -1074`. -/
def tiny : Float := Float.ofBits 0x0000000000000001

/-- A zero of each sign, and one more value behind them. -/
def zerosAnd (last : Float) : ConstraintSet Float :=
  ofList [.level ⟨7⟩ (.ok (-0.0)), .level ⟨8⟩ (.ok 0.0), .level ⟨9⟩ (.ok last)]

theorem totalViolation_eq_zero_iff_zerosAnd :
    ((zerosAnd (-0.0)).totalViolation ∅).outcome = .ok 0.0 ∧
    ((zerosAnd (-tiny)).totalViolation ∅).outcome ≠ .ok 0.0 ∧
    (∃ t, ((zerosAnd (-tiny)).totalViolation ∅).outcome = .ok t ∧ t ≠ Float.nan ∧ 0.0 ≤ t ∧ t ≠ -0.0) ∧
    ((ofList [.level ⟨7⟩ (.ok (-1 / 2)), .level ⟨8⟩ (.ok 3)]).totalViolation ∅).outcome = .ok (7 / 2 : ℚ) := by
  obtain ⟨floats, rationals⟩ := totalViolation_eq_zero_iff
  have constraints (last : Float) : (zerosAnd last).constraints =
    [.level ⟨7⟩ (.ok (-0.0)), .level ⟨8⟩ (.ok 0.0), .level ⟨9⟩ (.ok last)] := rfl
  refine ⟨(floats _ ∅).1.mpr ?_, fun zero => ?_, ⟨_, rfl, (floats (zerosAnd (-tiny)) ∅).2 _ rfl⟩, ?_⟩
  · rw [constraints]
    simp only [List.forall_mem_cons]
    exact ⟨⟨_, rfl, .inr rfl⟩, ⟨_, rfl, .inl rfl⟩, ⟨_, rfl, .inr rfl⟩, nofun⟩
  · obtain ⟨v, value, isZero⟩ := (floats _ ∅).1.mp zero (.level ⟨9⟩ (.ok (-tiny))) (by simp [constraints])
    obtain rfl : -tiny = v := Except.ok.inj value
    obtain positive | negative := isZero
    · exact absurd positive (by decide)
    · exact absurd negative (by decide)
  · exact (rationals _ ∅ _).mpr ⟨[-1 / 2, 3], .cons rfl (.cons rfl .nil), by norm_num⟩

end InequalityLayer.ConstraintSet
