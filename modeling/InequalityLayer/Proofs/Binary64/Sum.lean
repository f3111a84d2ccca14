import InequalityLayer.Proofs.Binary64.Order
import InequalityLayer.Proofs.Binary64.Packing
import InequalityLayer.Proofs.Binary64.Rounding
import Mathlib

/-!
Sums of numbers that are not negative. Such a sum is no NaN and not negative either (`zero_le_add`), and it
is finite as long as the exact sum stays below `overflowBound` (`isFinite_add_iff`). A summand that is not
finite makes the sum not finite (`isFinite_left_of_add`).
-/
namespace InequalityLayer.Binary64
set_option autoImplicit false
open Float.Model UnpackedFloat

/-! ## Exact values -/

/-- The value of a finite number, and zero for the others. -/
def exactValue : UnpackedFloat → ℚ
  | .finite .positive m e _ => binaryValue m e
  | .finite .negative m e _ => -binaryValue m e
  | _ => 0

def value (a : Float) : ℚ := exactValue a.toModel.unpack

theorem binaryValue_pos {m : ℕ} (pos : 0 < m) (e : ℤ) : 0 < binaryValue m e := by
  have significand : (0 : ℚ) < m := by exact_mod_cast pos
  exact mul_pos significand (by positivity)

theorem value_abs (a : Float) : value a.abs = |value a| := by
  rw [value, value, unpack_abs]
  cases a.toModel.unpack with
  | finite s m e pos =>
    have := binaryValue_pos pos e
    cases s with
    | positive => exact (abs_of_pos this).symm
    | negative => exact ((abs_neg _).trans (abs_of_pos this)).symm
  | _ => exact abs_zero.symm

theorem binaryValue_lt_overflowBound {m : ℕ} {e : ℤ} (h : Canonical m e) (small : e ≤ 971) :
    binaryValue m e < overflowBound := by
  have significand : (m : ℚ) + 1 ≤ 2 ^ 53 := by exact_mod_cast h.lt
  have place : (2 : ℚ) ^ e ≤ 2 ^ (971 : ℤ) := zpow_le_zpow_right₀ one_le_two small
  have unit : (0 : ℚ) < 2 ^ (970 : ℤ) := by positivity
  rw [overflowBound_eq, binaryValue]
  rw [largest_place] at place
  generalize (2 : ℚ) ^ (970 : ℤ) = u at *
  calc (m : ℚ) * 2 ^ e ≤ (2 ^ 53 - 1) * (2 * u) := by
        apply mul_le_mul (by linarith) place (by positivity) (by norm_num)
    _ < (2 ^ 54 - 1) * u := by linarith only [unit]

/-! ## Numbers that are not negative -/

/-- Zeros of either sign, and what has the positive sign. -/
def Nonnegative : UnpackedFloat → Prop
  | .notANumber => False
  | .infinity s => s = .positive
  | .zero _ => True
  | .finite s _ _ _ => s = .positive

theorem zero_le_iff (a : Float) : 0.0 ≤ a ↔ Nonnegative a.toModel.unpack := by
  have zero : (0.0 : Float).toModel.unpack = .zero .positive := rfl
  rw [le_iff_compare, zero]
  cases a.toModel.unpack with
  | notANumber => simp [UnpackedFloat.compare, Nonnegative]
  | infinity s => cases s <;> simp [UnpackedFloat.compare, Nonnegative]
  | zero s => simp [UnpackedFloat.compare, Nonnegative]
  | finite s m e pos => cases s <;> simp [UnpackedFloat.compare, Nonnegative]

theorem zero_le_abs {a : Float} (h : a ≠ Float.nan) : 0.0 ≤ a.abs := by
  rw [zero_le_iff, unpack_abs]
  cases word : a.toModel.unpack with
  | notANumber => exact absurd ((unpack_eq_notANumber_iff a).mp word) h
  | _ => trivial

theorem ne_nan_of_zero_le {a : Float} (h : 0.0 ≤ a) : a ≠ Float.nan :=
  fun nan => not_le_of_nan (.inr nan) h

/-! ## Addition -/

theorem unpack_add (a b : Float) :
    (a + b).toModel.unpack =
      (Float.Model.pack (UnpackedFloat.add Format.binary64 a.toModel.unpack b.toModel.unpack)).unpack := rfl

theorem add_zero_finite (s t : Sign) {m : ℕ} {e : ℤ} (pos : 0 < m) :
    UnpackedFloat.add Format.binary64 (.zero s) (.finite t m e pos) = .finite t m e pos := rfl

theorem add_finite_zero (s t : Sign) {m : ℕ} {e : ℤ} (pos : 0 < m) :
    UnpackedFloat.add Format.binary64 (.finite t m e pos) (.zero s) = .finite t m e pos := rfl

theorem add_infinity (s : Sign) {v : UnpackedFloat} (h : v.isFinite = true) :
    UnpackedFloat.add Format.binary64 (.infinity s) v = .infinity s := by
  cases v with
  | notANumber => cases h
  | infinity t => cases h
  | zero t => rfl
  | finite t m e pos => rfl

theorem add_of_not_finite {u : UnpackedFloat} (h : u.isFinite = false) (v : UnpackedFloat) :
    UnpackedFloat.add Format.binary64 u v = .notANumber ∨
      ∃ s, UnpackedFloat.add Format.binary64 u v = .infinity s := by
  cases u with
  | notANumber => exact .inl rfl
  | zero s => cases h
  | finite s m e pos => cases h
  | infinity s =>
    cases v with
    | notANumber => exact .inl rfl
    | infinity t => cases s <;> cases t <;> simp [UnpackedFloat.add]
    | zero t => exact .inr ⟨s, rfl⟩
    | finite t m e pos => exact .inr ⟨s, rfl⟩

theorem isFinite_left_of_add {a b : Float} (h : (a + b).isFinite = true) : a.isFinite = true := by
  by_contra infinite
  change (a + b).toModel.unpack.isFinite = true at h
  rw [unpack_add] at h
  obtain nan | ⟨s, same⟩ := add_of_not_finite (Bool.eq_false_of_not_eq_true infinite) b.toModel.unpack
  · rw [nan] at h
    exact absurd h (by decide)
  · rw [same, unpack_pack_infinity] at h
    cases h

/-- Two positive numbers brought to one exponent and added. -/
theorem add_finite {m n : ℕ} {e f : ℤ} (hm : 0 < m) (hn : 0 < n) :
    ∃ k, 0 < k ∧ binaryValue k (min e f) = binaryValue m e + binaryValue n f ∧
      UnpackedFloat.add Format.binary64 (.finite .positive m e hm) (.finite .positive n f hn) =
        UnpackedFloat.round Format.binary64 .positive k (min e f) := by
  let i := (e - min e f).toNat
  let j := (f - min e f).toNat
  have first : binaryValue (m <<< i) (min e f) = binaryValue m e := by
    rw [← binaryValue_shiftLeft m e i]
    congr 1
    omega
  have second : binaryValue (n <<< j) (min e f) = binaryValue n f := by
    rw [← binaryValue_shiftLeft n f j]
    congr 1
    omega
  have positive : 0 < m <<< i + n <<< j := by
    rw [Nat.shiftLeft_eq]
    positivity
  refine ⟨m <<< i + n <<< j, positive, ?_, ?_⟩
  · rw [← first, ← second, binaryValue, binaryValue, binaryValue, Nat.cast_add, add_mul]
  · change UnpackedFloat.normalize Format.binary64 ((m <<< i : ℕ) + (n <<< j : ℕ) : ℤ) (min e f) .positive = _
    rw [← Nat.cast_add]
    unfold UnpackedFloat.normalize
    rw [Int.compare_eq_gt.mpr (by exact_mod_cast positive)]
    rfl

theorem Nearest.canonical {x : ℚ} {unit : ℤ} {r : ℕ} {f : ℤ} (h : Nearest x unit r f) (smallest : -1074 ≤ unit)
    (full : 2 ^ 52 ≤ r ∨ f = -1074) : Canonical r f := by
  obtain ⟨lt, _, rfl⟩ | ⟨_, rfl, rfl⟩ := h
  · exact ⟨lt, smallest, full⟩
  · exact ⟨by norm_num, by omega, full⟩

/-- A positive number is rounded to the nearest one with 53 bits, or to infinity if it is too large. -/
theorem round_cases {m : ℕ} (pos : 0 < m) {e : ℤ} (least : -1074 ≤ e) :
    binaryValue m e < overflowBound ∧
        (∃ r d, ∃ hr : 0 < r, (Float.Model.pack (UnpackedFloat.round Format.binary64 .positive m e)).unpack =
          .finite .positive r d hr ∧ Nearest (binaryValue m e) (lastExponent m e) r d) ∨
      overflowBound ≤ binaryValue m e ∧
        (Float.Model.pack (UnpackedFloat.round Format.binary64 .positive m e)).unpack = .infinity .positive := by
  obtain ⟨r, d, hr, rounded, nearest, full⟩ := round_positive pos least
  have overflow := nearest.overflow_iff pos least
  rw [rounded]
  by_cases large : 971 < d
  · exact .inr ⟨overflow.mp large, unpack_pack_of_lt large⟩
  · have canonical : Canonical r d := nearest.canonical (le_max_right _ _) full
    exact .inl ⟨not_le.mp fun le => large (overflow.mpr le), r, d, hr,
      unpack_pack_of_le canonical (not_lt.mp large), nearest⟩

theorem add_finite_cases {m n : ℕ} {e f : ℤ} (hm : 0 < m) (hn : 0 < n) (he : -1074 ≤ e) (hf : -1074 ≤ f) :
    binaryValue m e + binaryValue n f < overflowBound ∧
        (∃ r d pos, (Float.Model.pack (UnpackedFloat.add Format.binary64 (.finite .positive m e hm)
          (.finite .positive n f hn))).unpack = .finite .positive r d pos) ∨
      overflowBound ≤ binaryValue m e + binaryValue n f ∧
        (Float.Model.pack (UnpackedFloat.add Format.binary64 (.finite .positive m e hm)
          (.finite .positive n f hn))).unpack = .infinity .positive := by
  obtain ⟨k, hk, total, aligned⟩ := add_finite (e := e) (f := f) hm hn
  rw [aligned, ← total]
  obtain ⟨below, r, d, pos, sum, _⟩ | above := round_cases hk (le_min he hf)
  · exact .inl ⟨below, r, d, pos, sum⟩
  · exact .inr above

theorem nonnegative_cases {a : Float} (ha : 0.0 ≤ a) (fa : a.isFinite = true) :
    (∃ s, a.toModel.unpack = .zero s) ∨
      ∃ m e, ∃ pos : 0 < m, a.toModel.unpack = .finite .positive m e pos ∧ Canonical m e ∧ e ≤ 971 := by
  change a.toModel.unpack.isFinite = true at fa
  rw [zero_le_iff] at ha
  cases word : a.toModel.unpack with
  | notANumber =>
    rw [word] at fa
    cases fa
  | infinity s =>
    rw [word] at fa
    cases fa
  | zero s => exact .inl ⟨s, rfl⟩
  | finite s m e pos =>
    rw [word] at ha
    obtain rfl : s = .positive := ha
    exact .inr ⟨m, e, pos, rfl, canonical_unpack word⟩

theorem unpack_of_zero_le {a : Float} (h : 0.0 ≤ a) (infinite : ¬ a.isFinite = true) :
    a.toModel.unpack = .infinity .positive := by
  change ¬ a.toModel.unpack.isFinite = true at infinite
  rw [zero_le_iff] at h
  cases word : a.toModel.unpack with
  | notANumber =>
    rw [word] at h
    exact absurd h not_false
  | infinity s =>
    rw [word] at h
    obtain rfl : s = .positive := h
    rfl
  | _ =>
    rw [word] at infinite
    exact absurd rfl infinite

/-- The sum of two finite numbers that are not negative is one too, or it is infinite because the exact sum
is too large. -/
theorem add_cases {a b : Float} (ha : 0.0 ≤ a) (hb : 0.0 ≤ b) (fa : a.isFinite = true) (fb : b.isFinite = true) :
    value a + value b < overflowBound ∧ (a + b).isFinite = true ∧ 0.0 ≤ a + b ∨
      overflowBound ≤ value a + value b ∧ (a + b).toModel.unpack = .infinity .positive := by
  change _ ∧ (a + b).toModel.unpack.isFinite = true ∧ _ ∨ _
  rw [zero_le_iff, value, value, unpack_add]
  obtain ⟨s, left⟩ | ⟨m, e, hm, left, canonical, small⟩ := nonnegative_cases ha fa
  · obtain ⟨t, right⟩ | ⟨n, f, hn, right, canonical, small⟩ := nonnegative_cases hb fb
    · have bound : 0 < overflowBound := binaryValue_pos (by norm_num) 970
      rw [left, right]
      refine .inl ⟨by simpa [exactValue] using bound, ?_⟩
      cases s <;> cases t <;> exact ⟨rfl, trivial⟩
    · rw [left, right]
      refine .inl ⟨by simpa [exactValue] using binaryValue_lt_overflowBound canonical small, ?_⟩
      rw [add_zero_finite, unpack_pack_of_le canonical small]
      exact ⟨rfl, rfl⟩
  · obtain ⟨t, right⟩ | ⟨n, f, hn, right, other, _⟩ := nonnegative_cases hb fb
    · rw [left, right]
      refine .inl ⟨by simpa [exactValue] using binaryValue_lt_overflowBound canonical small, ?_⟩
      rw [add_finite_zero, unpack_pack_of_le canonical small]
      exact ⟨rfl, rfl⟩
    · rw [left, right]
      obtain ⟨below, r, d, pos, sum⟩ | ⟨above, sum⟩ := add_finite_cases hm hn canonical.least other.least
      · rw [sum]
        exact .inl ⟨below, rfl, rfl⟩
      · exact .inr ⟨above, sum⟩

theorem isFinite_add_iff {a b : Float} (ha : 0.0 ≤ a) (hb : 0.0 ≤ b) (fa : a.isFinite = true)
    (fb : b.isFinite = true) : (a + b).isFinite = true ↔ value a + value b < overflowBound := by
  obtain ⟨below, finite, _⟩ | ⟨above, infinite⟩ := add_cases ha hb fa fb
  · exact iff_of_true finite below
  · refine iff_of_false ?_ (not_lt.mpr above)
    change ¬ (a + b).toModel.unpack.isFinite = true
    rw [infinite]
    exact Bool.false_ne_true

theorem zero_le_add {a b : Float} (ha : 0.0 ≤ a) (hb : 0.0 ≤ b) (fb : b.isFinite = true) : 0.0 ≤ a + b := by
  by_cases fa : a.isFinite = true
  · obtain ⟨_, _, nonneg⟩ | ⟨_, infinite⟩ := add_cases ha hb fa fb
    · exact nonneg
    · rw [zero_le_iff, infinite]
      rfl
  · change b.toModel.unpack.isFinite = true at fb
    rw [zero_le_iff, unpack_add, unpack_of_zero_le ha fa, add_infinity .positive fb, unpack_pack_infinity]
    rfl

end InequalityLayer.Binary64
