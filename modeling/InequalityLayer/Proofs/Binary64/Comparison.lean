import InequalityLayer.Proofs.Binary64.Sum
import Mathlib

/-!
Binary64 numbers in order. All of them but NaN have a position among the rationals and both infinities, and
they are compared by it (`le_iff_position`, `lt_iff_position`); among finite ones it is the value
(`le_iff_value_le`). Rounding never takes an exact number below a representable one (`Nearest.le_of_le`), so
that a sum of numbers that are not negative is at least each of them (`le_add`).
-/
namespace InequalityLayer.Binary64
set_option autoImplicit false
open Float.Model UnpackedFloat

/-! ## Values -/

theorem binaryValue_lt_place {m : ℕ} {e f : ℤ} (h : Canonical m e) (less : e < f) :
    binaryValue m e < 2 ^ 52 * 2 ^ f := by
  have significand : (m : ℚ) < 2 ^ 53 := by exact_mod_cast h.lt
  have unit : (0 : ℚ) < 2 ^ e := by positivity
  have next : (2 : ℚ) ^ (e + 1) ≤ 2 ^ f := zpow_le_zpow_right₀ one_le_two less
  rw [zpow_add₀ two_ne_zero, zpow_one] at next
  calc (m : ℚ) * 2 ^ e < 2 ^ 53 * 2 ^ e := mul_lt_mul_of_pos_right significand unit
    _ = 2 ^ 52 * (2 ^ e * 2) := by ring
    _ ≤ 2 ^ 52 * 2 ^ f := by gcongr

/-- A larger exponent comes with a full significand, so it is the larger number. -/
theorem binaryValue_lt {m n : ℕ} {e f : ℤ} (hm : Canonical m e) (hn : Canonical n f) (less : e < f) :
    binaryValue m e < binaryValue n f := by
  have full : 2 ^ 52 ≤ n := hn.full.resolve_right (by have := hm.least; omega)
  refine (binaryValue_lt_place hm less).trans_le ?_
  exact mul_le_mul_of_nonneg_right (by exact_mod_cast full) (by positivity)

theorem compare_magnitudes {m n : ℕ} {e f : ℤ} (hm : Canonical m e) (hn : Canonical n f) :
    ((compare e f).then (compare m n)).isLE = true ↔ binaryValue m e ≤ binaryValue n f := by
  obtain less | rfl | less := lt_trichotomy e f
  · rw [compare_lt_iff_lt.mpr less]
    exact iff_of_true rfl (binaryValue_lt hm hn less).le
  · have unit : (0 : ℚ) < 2 ^ e := by positivity
    rw [compare_eq_iff_eq.mpr rfl, Ordering.eq_then, binaryValue, binaryValue, mul_le_mul_iff_left₀ unit,
      Nat.cast_le, Nat.isLE_compare]
  · rw [compare_gt_iff_gt.mpr less]
    exact iff_of_false Bool.false_ne_true (not_le.mpr (binaryValue_lt hn hm less))

/-- Finite numbers are compared by their values: below zero the larger magnitude is the smaller number. -/
theorem le_iff_value_le {a b : Float} (fa : a.isFinite = true) (fb : b.isFinite = true) :
    a ≤ b ↔ value a ≤ value b := by
  change a.toModel.unpack.isFinite = true at fa
  change b.toModel.unpack.isFinite = true at fb
  rw [le_iff_compare, value, value]
  cases left : a.toModel.unpack with
  | notANumber | infinity s =>
    rw [left] at fa
    cases fa
  | zero s =>
    cases right : b.toModel.unpack with
    | notANumber | infinity t =>
      rw [right] at fb
      cases fb
    | zero t => exact iff_of_true ⟨.eq, rfl, rfl⟩ le_rfl
    | finite t n f hn =>
      have positive := binaryValue_pos hn f
      cases t with
      | positive => exact iff_of_true ⟨.lt, rfl, rfl⟩ positive.le
      | negative => exact iff_of_false (by simp [UnpackedFloat.compare]) (not_le.mpr (neg_lt_zero.mpr positive))
  | finite s m e hm =>
    have first := binaryValue_pos hm e
    cases right : b.toModel.unpack with
    | notANumber | infinity t =>
      rw [right] at fb
      cases fb
    | zero t =>
      cases s with
      | positive => exact iff_of_false (by simp [UnpackedFloat.compare]) (not_le.mpr first)
      | negative => exact iff_of_true ⟨.lt, rfl, rfl⟩ (neg_nonpos.mpr first.le)
    | finite t n f hn =>
      have second := binaryValue_pos hn f
      cases s with
      | positive =>
        cases t with
        | positive =>
          simpa [UnpackedFloat.compare, exactValue] using
            compare_magnitudes (canonical_unpack left).1 (canonical_unpack right).1
        | negative =>
          exact iff_of_false (by simp [UnpackedFloat.compare]) (not_le.mpr ((neg_lt_zero.mpr second).trans first))
      | negative =>
        cases t with
        | positive => exact iff_of_true ⟨.lt, rfl, rfl⟩ ((neg_nonpos.mpr first.le).trans second.le)
        | negative =>
          have turned : ((compare e f).then (compare m n)).swap = (compare f e).then (compare n m) := by
            rw [Ordering.swap_then, ← Std.OrientedOrd.eq_swap, ← Std.OrientedOrd.eq_swap]
          simpa [UnpackedFloat.compare, turned, exactValue] using
            compare_magnitudes (canonical_unpack right).1 (canonical_unpack left).1

/-! ## Positions -/

/-- The place of a number among the rationals and both infinities; what NaN is given means nothing. -/
def place : UnpackedFloat → WithBot (WithTop ℚ)
  | .infinity .positive => ⊤
  | .infinity .negative => ⊥
  | u => ((exactValue u : WithTop ℚ) : WithBot (WithTop ℚ))

def position (a : Float) : WithBot (WithTop ℚ) := place a.toModel.unpack

theorem position_of_isFinite {a : Float} (h : a.isFinite = true) :
    position a = ((value a : WithTop ℚ) : WithBot (WithTop ℚ)) := by
  change a.toModel.unpack.isFinite = true at h
  unfold position value
  cases word : a.toModel.unpack with
  | infinity s =>
    rw [word] at h
    cases h
  | _ => rfl

theorem ne_nan_of_le {a b : Float} (h : a ≤ b) : a ≠ Float.nan ∧ b ≠ Float.nan :=
  ⟨fun nan => not_le_of_nan (.inl nan) h, fun nan => not_le_of_nan (.inr nan) h⟩

theorem le_iff_position {a b : Float} (ha : a ≠ Float.nan) (hb : b ≠ Float.nan) :
    a ≤ b ↔ position a ≤ position b := by
  by_cases finite : a.isFinite = true ∧ b.isFinite = true
  · rw [le_iff_value_le finite.1 finite.2, position_of_isFinite finite.1, position_of_isFinite finite.2,
      WithBot.coe_le_coe, WithTop.coe_le_coe]
  · change ¬ (a.toModel.unpack.isFinite = true ∧ b.toModel.unpack.isFinite = true) at finite
    rw [ne_eq, ← unpack_eq_notANumber_iff] at ha hb
    rw [le_iff_compare]
    unfold position
    cases left : a.toModel.unpack with
    | notANumber => exact absurd left ha
    | infinity s =>
      cases right : b.toModel.unpack with
      | notANumber => exact absurd right hb
      | infinity t => cases s <;> cases t <;> simp [UnpackedFloat.compare, place] <;> decide
      | _ => cases s <;> simp [UnpackedFloat.compare, place]
    | _ =>
      cases right : b.toModel.unpack with
      | notANumber => exact absurd right hb
      | infinity t => cases t <;> simp [UnpackedFloat.compare, place]
      | _ => exact absurd ⟨by rw [left]; rfl, by rw [right]; rfl⟩ finite

theorem lt_iff_position {a b : Float} (ha : a ≠ Float.nan) (hb : b ≠ Float.nan) :
    a < b ↔ position a < position b := by
  have turned := not_lt_iff a b
  simp only [ha, hb, or_false, le_iff_position hb ha] at turned
  rw [← not_le, ← turned, not_not]

theorem le_refl_of_ne_nan {a : Float} (h : a ≠ Float.nan) : a ≤ a := (le_iff_position h h).mpr le_rfl

theorem le_trans {a b c : Float} (first : a ≤ b) (second : b ≤ c) : a ≤ c := by
  obtain ⟨ha, hb⟩ := ne_nan_of_le first
  obtain ⟨_, hc⟩ := ne_nan_of_le second
  rw [le_iff_position ha hb] at first
  rw [le_iff_position hb hc] at second
  exact (le_iff_position ha hc).mpr (first.trans second)

theorem lt_of_le_of_lt {a b c : Float} (first : a ≤ b) (second : b < c) : a < c := by
  by_contra above
  rcases (not_lt_iff a c).mp above with le | nan | nan
  · exact (not_lt_iff b c).mpr (.inl (le_trans le first)) second
  · exact (ne_nan_of_le first).1 nan
  · exact (not_lt_iff b c).mpr (.inr (.inr nan)) second

theorem le_abs {a : Float} (h : a.isFinite = true) : a ≤ a.abs := by
  rw [le_iff_value_le h ((isFinite_abs a).trans h), value_abs]
  exact le_abs_self _

theorem le_inf {a : Float} (h : a ≠ Float.nan) : a ≤ Float.inf :=
  (le_iff_position h (by decide)).mpr le_top

/-! ## A sign turned twice -/

theorem value_zero_sub_neg {a : Float} (h : a.isFinite = true) :
    (0.0 - -a).isFinite = true ∧ value (0.0 - -a) = value a := by
  have difference : (0.0 - -a).toModel.unpack =
      (Float.Model.pack (UnpackedFloat.sub Format.binary64 (.zero .positive) (-a).toModel.unpack)).unpack := rfl
  change a.toModel.unpack.isFinite = true at h
  change (0.0 - -a).toModel.unpack.isFinite = true ∧ _
  rw [value, value, difference, unpack_neg]
  cases word : a.toModel.unpack with
  | notANumber | infinity s =>
    rw [word] at h
    cases h
  | zero s => cases s <;> exact ⟨rfl, rfl⟩
  | finite s m e pos =>
    obtain ⟨canonical, small⟩ := canonical_unpack word
    have turned : UnpackedFloat.sub Format.binary64 (.zero .positive) (UnpackedFloat.neg (.finite s m e pos)) =
        .finite s m e pos := by cases s <;> rfl
    rw [turned, unpack_pack_of_le canonical small]
    exact ⟨rfl, rfl⟩

/-- The difference may have lost the sign of a zero, but no comparison tells zeros apart. -/
theorem lt_zero_sub_neg_iff (a : Float) {b : Float} (h : b.isFinite = true) : a < 0.0 - -b ↔ a < b := by
  obtain ⟨finite, same⟩ := value_zero_sub_neg h
  by_cases nan : a = Float.nan
  · have below (c : Float) : ¬ a < c := (not_lt_iff a c).mpr (.inr (.inl nan))
    exact iff_of_false (below _) (below _)
  · rw [lt_iff_position nan (ne_nan_of_isFinite finite), lt_iff_position nan (ne_nan_of_isFinite h),
      position_of_isFinite finite, position_of_isFinite h, same]

/-! ## Sums -/

/-- Rounding does not take an exact number below a representable one, which is either whole on the same grid or
smaller than every number with all its bits there. -/
theorem Nearest.le_of_le {m : ℕ} (pos : 0 < m) {e : ℤ} (least : -1074 ≤ e) {r : ℕ} {f : ℤ}
    (h : Nearest (binaryValue m e) (lastExponent m e) r f) {n : ℕ} {g : ℤ} (other : Canonical n g)
    (le : binaryValue n g ≤ binaryValue m e) : binaryValue n g ≤ binaryValue r f := by
  obtain ⟨_, _, full⟩ := scaled_bounds pos least
  rw [scaled_eq] at full
  generalize lastExponent m e = unit at *
  have spacing : (0 : ℚ) < 2 ^ unit := by positivity
  have rounded : binaryValue r f = roundHalfEven (binaryValue m e / 2 ^ unit) * 2 ^ unit := by
    obtain ⟨_, same, rfl⟩ | ⟨carry, rfl, rfl⟩ := h
    · rw [binaryValue, ← same]
      rfl
    · rw [carry, binaryValue, zpow_add₀ two_ne_zero]
      norm_num
      ring
  rw [rounded, ← div_le_iff₀ spacing]
  by_cases coarse : unit ≤ g
  · have whole : binaryValue n g / 2 ^ unit = (n * 2 ^ (g - unit).toNat : ℤ) := by
      rw [← scaled_eq, binaryValue]
      push_cast
      rw [← zpow_natCast, Int.toNat_of_nonneg (by omega)]
    rw [whole, Int.cast_le]
    exact le_roundHalfEven (whole ▸ div_le_div_of_nonneg_right le spacing.le)
  · have many : ((2 ^ 52 : ℤ) : ℚ) ≤ binaryValue m e / 2 ^ unit := by
      push_cast
      exact full.resolve_right (by have := other.least; omega)
    have small : binaryValue n g / 2 ^ unit ≤ (2 ^ 52 : ℤ) := by
      rw [div_le_iff₀ spacing]
      exact_mod_cast (binaryValue_lt_place other (not_le.mp coarse)).le
    exact small.trans (by exact_mod_cast le_roundHalfEven many)

theorem le_add_finite {m n k : ℕ} {e f g : ℤ} (hm : 0 < m) (hn : 0 < n) (he : -1074 ≤ e) (hf : -1074 ≤ f)
    (other : Canonical k g) (le : binaryValue k g ≤ binaryValue m e + binaryValue n f) :
    ((binaryValue k g : WithTop ℚ) : WithBot (WithTop ℚ)) ≤
      place (Float.Model.pack (UnpackedFloat.add Format.binary64 (.finite .positive m e hm)
        (.finite .positive n f hn))).unpack := by
  obtain ⟨l, hl, total, aligned⟩ := add_finite (e := e) (f := f) hm hn
  have least : -1074 ≤ min e f := le_min he hf
  rw [aligned]
  obtain ⟨_, r, d, hr, sum, nearest⟩ | ⟨_, sum⟩ := round_cases hl least
  · rw [sum]
    exact WithBot.coe_le_coe.mpr (WithTop.coe_le_coe.mpr (nearest.le_of_le hl least other (total ▸ le)))
  · rw [sum]
    exact le_top

/-- A sum of numbers that are not negative is at least each of them, whether it is finite or not. -/
theorem le_add {a b : Float} (ha : 0.0 ≤ a) (hb : 0.0 ≤ b) (fb : b.isFinite = true) :
    a ≤ a + b ∧ b ≤ a + b := by
  have sum : a + b ≠ Float.nan := ne_nan_of_zero_le (zero_le_add ha hb fb)
  rw [le_iff_position (ne_nan_of_zero_le ha) sum, le_iff_position (ne_nan_of_zero_le hb) sum]
  unfold position
  rw [unpack_add]
  by_cases fa : a.isFinite = true
  · obtain ⟨s, left⟩ | ⟨m, e, hm, left, canonical, small⟩ := nonnegative_cases ha fa
    · obtain ⟨t, right⟩ | ⟨n, f, hn, right, canonical, small⟩ := nonnegative_cases hb fb
      · rw [left, right]
        cases s <;> cases t <;> exact ⟨le_rfl, le_rfl⟩
      · rw [left, right, add_zero_finite, unpack_pack_of_le canonical small]
        exact ⟨WithBot.coe_le_coe.mpr (WithTop.coe_le_coe.mpr (binaryValue_pos hn f).le), le_rfl⟩
    · obtain ⟨t, right⟩ | ⟨n, f, hn, right, other, _⟩ := nonnegative_cases hb fb
      · rw [left, right, add_finite_zero, unpack_pack_of_le canonical small]
        exact ⟨le_rfl, WithBot.coe_le_coe.mpr (WithTop.coe_le_coe.mpr (binaryValue_pos hm e).le)⟩
      · rw [left, right]
        exact ⟨le_add_finite hm hn canonical.least other.least canonical
            (le_add_of_nonneg_right (binaryValue_pos hn f).le),
          le_add_finite hm hn canonical.least other.least other
            (le_add_of_nonneg_left (binaryValue_pos hm e).le)⟩
  · change b.toModel.unpack.isFinite = true at fb
    rw [unpack_of_zero_le ha fa, add_infinity .positive fb, unpack_pack_infinity]
    exact ⟨le_top, le_top⟩

end InequalityLayer.Binary64
