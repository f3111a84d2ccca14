import InequalityLayer.Scalar
import Mathlib

/-!
Comparisons of binary64 numbers. Two numbers are compared through one partial ordering that leaves out
NaN, and turning the comparison round turns its answer round (`compare_swap`). So a number that is not
below another is at least as large, or one of the two is NaN (`not_lt_iff`).
-/
namespace InequalityLayer.Binary64
set_option autoImplicit false
open Float.Model

/-! ## Unpacked numbers -/

theorem compare_swap (a b : UnpackedFloat) : (a.compare b).map Ordering.swap = b.compare a := by
  cases a with
  | notANumber => cases b <;> rfl
  | infinity s =>
    cases b with
    | notANumber => cases s <;> rfl
    | infinity t => cases s <;> cases t <;> rfl
    | zero t => cases s <;> rfl
    | finite t m e pos => cases s <;> rfl
  | zero s =>
    cases b with
    | notANumber => rfl
    | infinity t => cases t <;> rfl
    | zero t => rfl
    | finite t m e pos => cases t <;> rfl
  | finite s m e pos =>
    cases b with
    | notANumber => cases s <;> rfl
    | infinity t => cases s <;> cases t <;> rfl
    | zero t => cases s <;> rfl
    | finite t n f pos =>
      have magnitudes : ((compare e f).then (compare m n)).swap = (compare f e).then (compare n m) := by
        rw [Ordering.swap_then, ← Std.OrientedOrd.eq_swap, ← Std.OrientedOrd.eq_swap]
      cases s <;> cases t <;> simp [UnpackedFloat.compare, ← magnitudes]

theorem compare_eq_none_iff (a b : UnpackedFloat) :
    a.compare b = none ↔ a = .notANumber ∨ b = .notANumber := by
  cases a with
  | notANumber => cases b <;> simp [UnpackedFloat.compare]
  | infinity s => cases b <;> cases s <;> simp [UnpackedFloat.compare]
  | zero s =>
    cases b with
    | notANumber => simp [UnpackedFloat.compare]
    | infinity t => cases t <;> simp [UnpackedFloat.compare]
    | zero t => simp [UnpackedFloat.compare]
    | finite t m e pos => cases t <;> simp [UnpackedFloat.compare]
  | finite s m e pos =>
    cases b with
    | notANumber => cases s <;> simp [UnpackedFloat.compare]
    | infinity t => cases s <;> cases t <;> simp [UnpackedFloat.compare]
    | zero t => cases s <;> simp [UnpackedFloat.compare]
    | finite t n f pos => cases s <;> cases t <;> simp [UnpackedFloat.compare]

/-! ## Numbers -/

theorem unpack_eq_notANumber_iff (a : Float) : a.toModel.unpack = .notANumber ↔ a = Float.nan := by
  rw [← UnpackedFloat.isNaN_iff, ← decide_eq_true_iff (p := a = Float.nan), ← Float.isNaN_eq_decide_eq_nan]
  rfl

theorem lt_iff_compare (a b : Float) : a < b ↔ a.toModel.unpack.compare b.toModel.unpack = some .lt := by
  show decide (a.toModel < b.toModel) = true ↔ _
  rw [decide_eq_true_iff]
  exact beq_iff_eq

theorem le_iff_compare (a b : Float) :
    a ≤ b ↔ ∃ o, a.toModel.unpack.compare b.toModel.unpack = some o ∧ o.isLE = true := by
  show decide (a.toModel ≤ b.toModel) = true ↔ _
  rw [decide_eq_true_iff]
  exact Option.any_eq_true _ _

/-- A test for "above" lets pass what is not above, and also what cannot be compared. -/
theorem not_lt_iff (a b : Float) : ¬ a < b ↔ b ≤ a ∨ a = Float.nan ∨ b = Float.nan := by
  have incomparable : a.toModel.unpack.compare b.toModel.unpack = none ↔ a = Float.nan ∨ b = Float.nan := by
    rw [compare_eq_none_iff, unpack_eq_notANumber_iff, unpack_eq_notANumber_iff]
  rw [lt_iff_compare, le_iff_compare, ← compare_swap a.toModel.unpack, ← incomparable]
  cases a.toModel.unpack.compare b.toModel.unpack with
  | none => simp
  | some o => cases o <;> simp

theorem not_le_of_nan {a b : Float} (h : a = Float.nan ∨ b = Float.nan) : ¬ a ≤ b := by
  have incomparable : a.toModel.unpack.compare b.toModel.unpack = none := by
    rw [compare_eq_none_iff, unpack_eq_notANumber_iff, unpack_eq_notANumber_iff]
    exact h
  rw [le_iff_compare, incomparable]
  simp

theorem ne_nan_of_isFinite {a : Float} (h : a.isFinite = true) : a ≠ Float.nan := by
  rintro rfl
  exact absurd h (by decide)

end InequalityLayer.Binary64
