import InequalityLayer.Decimal.Binary64
import InequalityLayer.Decimal.Rounded
import Mathlib

/-!
Rounding to binary64. A significand that is shifted to the right keeps two bits about what it lost
(`Stands`), and these are enough to round it to the nearest whole number, a half to the even one
(`Stands.roundedMantissa`). So a positive number is rounded to a whole multiple of its last place
(`round_positive`), and it is too large for the format from `overflowBound` on (`Nearest.overflow_iff`).
-/
namespace InequalityLayer
set_option autoImplicit false

/-! ## Whole numbers nearest to a rational -/

theorem roundHalfEven_cases (x : ℚ) :
    ∃ f : ℚ, x = ⌊x⌋ + f ∧ 0 ≤ f ∧ f < 1 ∧
      (f < 1 / 2 ∧ roundHalfEven x = ⌊x⌋ ∨ 1 / 2 < f ∧ roundHalfEven x = ⌊x⌋ + 1 ∨
        f = 1 / 2 ∧ roundHalfEven x = ⌊x⌋ + ⌊x⌋ % 2) := by
  refine ⟨x - ⌊x⌋, by ring, sub_nonneg.mpr (Int.floor_le x), sub_lt_iff_lt_add'.mpr (Int.lt_floor_add_one x), ?_⟩
  have whole : x.floor = ⌊x⌋ := rfl
  unfold roundHalfEven
  simp only [whole]
  split_ifs with below above even
  · exact .inl ⟨below, rfl⟩
  · exact .inr (.inl ⟨above, rfl⟩)
  · exact .inr (.inr ⟨le_antisymm (not_lt.mp above) (not_lt.mp below), by omega⟩)
  · exact .inr (.inr ⟨le_antisymm (not_lt.mp above) (not_lt.mp below), by omega⟩)

theorem le_roundHalfEven {n : ℤ} {x : ℚ} (h : (n : ℚ) ≤ x) : n ≤ roundHalfEven x := by
  have whole : n ≤ ⌊x⌋ := Int.le_floor.mpr h
  obtain ⟨f, _, _, _, ⟨_, rounded⟩ | ⟨_, rounded⟩ | ⟨_, rounded⟩⟩ := roundHalfEven_cases x <;> omega

theorem roundHalfEven_le {n : ℤ} {x : ℚ} (h : x ≤ n) : roundHalfEven x ≤ n := by
  obtain ⟨f, split, _, _, ⟨_, rounded⟩ | ⟨above, rounded⟩ | ⟨half, rounded⟩⟩ := roundHalfEven_cases x
  · have : ⌊x⌋ ≤ n := by exact_mod_cast (Int.floor_le x).trans h
    omega
  all_goals
    have : (⌊x⌋ : ℚ) < n := by linarith
    have : ⌊x⌋ < n := by exact_mod_cast this
    omega

/-- An even number is reached from half a unit below: there the floor is odd, so that a half goes up. -/
theorem le_roundHalfEven_iff {n : ℤ} (even : n % 2 = 0) (x : ℚ) : n ≤ roundHalfEven x ↔ (n : ℚ) - 1 / 2 ≤ x := by
  obtain ⟨f, split, nonneg, lt, rounded⟩ := roundHalfEven_cases x
  constructor
  · intro le
    by_contra below
    have : (⌊x⌋ : ℚ) < n := by linarith [not_le.mp below]
    have : ⌊x⌋ < n := by exact_mod_cast this
    obtain ⟨_, rounded⟩ | ⟨above, rounded⟩ | ⟨half, rounded⟩ := rounded
    · omega
    · have : (n : ℚ) = ⌊x⌋ + 1 := by exact_mod_cast (by omega : n = ⌊x⌋ + 1)
      linarith [not_le.mp below]
    · have : (n : ℚ) = ⌊x⌋ + 1 := by exact_mod_cast (by omega : n = ⌊x⌋ + 1)
      linarith [not_le.mp below]
  · intro le
    by_cases whole : (n : ℚ) ≤ x
    · exact le_roundHalfEven whole
    · have lower : n - 1 ≤ ⌊x⌋ := Int.le_floor.mpr (by push_cast; linarith)
      have upper : ⌊x⌋ < n := Int.floor_lt.mpr (not_le.mp whole)
      have floor : (⌊x⌋ : ℚ) = n - 1 := by exact_mod_cast (by omega : ⌊x⌋ = n - 1)
      obtain ⟨below, _⟩ | ⟨_, rounded⟩ | ⟨_, rounded⟩ := rounded
      · linarith
      · omega
      · omega

namespace Binary64
open Float.Model UnpackedFloat

/-! ## Shifted significands -/

/-- A significand with two bits that say where the fraction of `x` lies: from a half on, and at neither zero
nor a half. -/
def Stands (em : ExtendedMantissa) (x : ℚ) : Prop :=
  ∃ f : ℚ, x = em.mantissa + f ∧ 0 ≤ f ∧ f < 1 ∧ (em.roundBit = true ↔ 1 / 2 ≤ f) ∧
    (em.stickyBit = true ↔ f ≠ 0 ∧ f ≠ 1 / 2)

theorem stands_exact (m : ℕ) : Stands (.ofMantissaAndAccuracy m .exact) m :=
  ⟨0, by simp [ExtendedMantissa.ofMantissaAndAccuracy], by norm_num, by norm_num,
    by norm_num [ExtendedMantissa.ofMantissaAndAccuracy], by simp [ExtendedMantissa.ofMantissaAndAccuracy]⟩

/-- The bit that is shifted out and the old fraction are the new fraction. -/
theorem Stands.shiftRightOne {em : ExtendedMantissa} {x : ℚ} (h : Stands em x) :
    Stands em.shiftRightOne (x / 2) := by
  obtain ⟨f, rfl, nonneg, lt, round, sticky⟩ := h
  have bit : em.mantissa % 2 = 0 ∨ em.mantissa % 2 = 1 := by omega
  have halves : (em.mantissa : ℚ) = 2 * (em.mantissa / 2 : ℕ) + (em.mantissa % 2 : ℕ) := by
    exact_mod_cast (Nat.div_add_mod em.mantissa 2).symm
  refine ⟨((em.mantissa % 2 : ℕ) + f) / 2, ?_, ?_, ?_, ?_, ?_⟩
  · rw [ExtendedMantissa.shiftRightOne, halves]
    ring
  · positivity
  · obtain zero | one := bit
    · rw [zero]; push_cast; linarith
    · rw [one]; push_cast; linarith
  · rw [ExtendedMantissa.shiftRightOne]
    obtain zero | one := bit
    · simp only [zero, bne_self_eq_false, Bool.false_eq_true, false_iff, not_le]
      push_cast
      linarith
    · simp only [one, bne_iff_ne, ne_eq, one_ne_zero, not_false_eq_true, true_iff]
      push_cast
      linarith
  · have old : (em.roundBit || em.stickyBit) = true ↔ f ≠ 0 := by
      rw [Bool.or_eq_true, round, sticky]
      grind
    rw [ExtendedMantissa.shiftRightOne, old]
    obtain zero | one := bit
    · rw [zero]; push_cast; grind
    · rw [one]; push_cast; grind

theorem Stands.shiftRight {em : ExtendedMantissa} {x : ℚ} (h : Stands em x) (k : ℕ) :
    Stands (em >>> k) (x / 2 ^ k) := by
  change Stands (k.repeat ExtendedMantissa.shiftRightOne em) _
  induction k with
  | zero => simpa [Nat.repeat] using h
  | succ k ih =>
    rw [Nat.repeat, pow_succ, ← div_div]
    exact ih.shiftRightOne

theorem Stands.roundedMantissa {em : ExtendedMantissa} {x : ℚ} (h : Stands em x) :
    (em.roundedMantissa : ℤ) = roundHalfEven x := by
  obtain ⟨f, split, nonneg, lt, round, sticky⟩ := h
  have whole : ⌊x⌋ = (em.mantissa : ℤ) :=
    Int.floor_eq_iff.mpr ⟨by push_cast; linarith, by push_cast; linarith⟩
  obtain ⟨g, split', _, _, cases⟩ := roundHalfEven_cases x
  obtain rfl : g = f := by
    rw [whole, split] at split'
    push_cast at split'
    linarith
  rw [whole] at cases
  obtain ⟨m, r, s⟩ := em
  cases r <;> cases s <;>
    simp only [Bool.false_eq_true, true_iff, false_iff] at round sticky <;>
    simp only [ExtendedMantissa.roundedMantissa, ExtendedMantissa.accuracy, Accuracy.roundToNearestEven] <;>
    grind

/-! ## Rounding to 53 bits -/

theorem binaryValue_add (m : ℕ) (e k : ℤ) : binaryValue m (e + k) = binaryValue m e * (2 : ℚ) ^ k := by
  rw [binaryValue, binaryValue, zpow_add₀ two_ne_zero, mul_assoc]

theorem binaryValue_bounds {m : ℕ} (pos : 0 < m) (e : ℤ) :
    (2 : ℚ) ^ (m.log2 + e) ≤ binaryValue m e ∧ binaryValue m e < (2 : ℚ) ^ (m.log2 + 1 + e) := by
  have unit : (0 : ℚ) < 2 ^ e := by positivity
  have lower : ((2 ^ m.log2 : ℕ) : ℚ) ≤ m := by exact_mod_cast Nat.log2_self_le pos.ne'
  have upper : (m : ℚ) < (2 ^ (m.log2 + 1) : ℕ) := by exact_mod_cast Nat.lt_log2_self
  have exponent : (m.log2 : ℤ) + 1 = (m.log2 + 1 : ℕ) := by push_cast; ring
  push_cast at lower upper
  rw [exponent, zpow_add₀ two_ne_zero, zpow_add₀ two_ne_zero, zpow_natCast, zpow_natCast]
  exact ⟨mul_le_mul_of_nonneg_right lower unit.le, mul_lt_mul_of_pos_right upper unit⟩

/-- The exponent of the last of 53 bits, but no less than the least. -/
def lastExponent (m : ℕ) (e : ℤ) : ℤ := max (m.log2 + e - 52) (-1074)

theorem targetExponent_eq (m : ℕ) (e : ℤ) :
    Format.binary64.targetExponent (totalExponent m e) = lastExponent m e := by
  have last : (m.log2 : ℤ) + 1 + e - 53 = m.log2 + e - 52 := by ring
  exact congrArg (max · (-1074)) last

theorem scaled_bounds {m : ℕ} (pos : 0 < m) {e : ℤ} (least : -1074 ≤ e) :
    1 ≤ binaryValue m (e - lastExponent m e) ∧ binaryValue m (e - lastExponent m e) < 2 ^ 53 ∧
      (2 ^ 52 ≤ binaryValue m (e - lastExponent m e) ∨ lastExponent m e = -1074) := by
  obtain ⟨lower, upper⟩ := binaryValue_bounds pos (e - lastExponent m e)
  have last : lastExponent m e = max (m.log2 + e - 52) (-1074) := rfl
  refine ⟨?_, ?_, ?_⟩
  · refine le_trans ?_ lower
    exact one_le_zpow₀ one_le_two (by omega)
  · refine upper.trans_le ?_
    rw [← zpow_natCast (2 : ℚ) 53]
    exact zpow_le_zpow_right₀ one_le_two (by push_cast; omega)
  · by_cases smallest : lastExponent m e = -1074
    · exact .inr smallest
    · refine .inl (le_trans ?_ lower)
      rw [← zpow_natCast (2 : ℚ) 52]
      exact zpow_le_zpow_right₀ one_le_two (by push_cast; omega)

theorem shift_stands (m : ℕ) {e : ℤ} (le : e ≤ lastExponent m e) :
    ∃ em, shiftToTargetExponent Format.binary64 m e .exact = (em, lastExponent m e) ∧
      Stands em (binaryValue m (e - lastExponent m e)) := by
  refine ⟨_, Prod.ext rfl ?_, ?_⟩
  · simp only [shiftToTargetExponent, targetExponent_eq, shiftToExponent]
    omega
  · have shifted := (stands_exact m).shiftRight (lastExponent m e - e).toNat
    simp only [shiftToTargetExponent, targetExponent_eq, shiftToExponent]
    have exponent : e - lastExponent m e = -((lastExponent m e - e).toNat : ℤ) := by omega
    rw [binaryValue, exponent, zpow_neg, zpow_natCast, ← div_eq_mul_inv]
    exact shifted

/-- A rounded significand fits, or it is the next power of two and moves by one place. -/
theorem shift_rounded {r : ℕ} (le : r ≤ 2 ^ 53) {e : ℤ} (least : -1074 ≤ e) :
    shiftToTargetExponent Format.binary64 r e .exact =
      if r = 2 ^ 53 then (⟨2 ^ 52, false, false⟩, e + 1) else (⟨r, false, false⟩, e) := by
  simp only [shiftToTargetExponent, targetExponent_eq, shiftToExponent]
  split_ifs with carry
  · have last : lastExponent r e = e + 1 := by
      rw [carry, lastExponent, Nat.log2_two_pow]
      omega
    have one : (e + 1 - e).toNat = 1 := by omega
    rw [last, carry, one]
    rfl
  · have small : r.log2 < 53 := by
      by_cases zero : r = 0
      · rw [zero]; decide
      · exact (Nat.log2_lt zero).mpr (by omega)
    have last : lastExponent r e ≤ e := by
      rw [lastExponent]
      omega
    have none : (lastExponent r e - e).toNat = 0 := by omega
    rw [none]
    exact Prod.ext rfl (add_zero e)

theorem lastExponent_shiftLeft {m : ℕ} (pos : 0 < m) (e : ℤ) (k : ℕ) :
    lastExponent (m <<< k) (e - k) = lastExponent m e := by
  have log : (m <<< k).log2 = m.log2 + k := by
    rw [Nat.log2_eq_iff (by rw [Nat.shiftLeft_eq]; positivity), Nat.shiftLeft_eq, Nat.pow_add, Nat.add_right_comm,
      Nat.pow_add]
    exact ⟨Nat.mul_le_mul_right _ (Nat.log2_self_le pos.ne'),
      Nat.mul_lt_mul_of_pos_right Nat.lt_log2_self (by positivity)⟩
  unfold lastExponent
  rw [log]
  push_cast
  congr 1
  ring

theorem binaryValue_shiftLeft (m : ℕ) (e : ℤ) (k : ℕ) :
    binaryValue (m <<< k) (e - k) = binaryValue m e := by
  rw [binaryValue, binaryValue, Nat.shiftLeft_eq, zpow_sub₀ two_ne_zero, zpow_natCast]
  push_cast
  field_simp

/-- Significand and exponent of the number nearest to `x`, whose last place is at `unit`: the whole number
nearest to `x / 2 ^ unit`, or half of it one place higher if it has a bit too many. -/
def Nearest (x : ℚ) (unit : ℤ) (r : ℕ) (f : ℤ) : Prop :=
  r < 2 ^ 53 ∧ (r : ℤ) = roundHalfEven (x / 2 ^ unit) ∧ f = unit ∨
    roundHalfEven (x / 2 ^ unit) = 2 ^ 53 ∧ r = 2 ^ 52 ∧ f = unit + 1

theorem scaled_eq (m : ℕ) (e unit : ℤ) : binaryValue m (e - unit) = binaryValue m e / 2 ^ unit := by
  rw [sub_eq_add_neg, binaryValue_add, zpow_neg, div_eq_mul_inv]

/-- A positive number on the grid of the smallest exponent is rounded to the nearest one with 53 bits; moving it to
the left first, where there is room, loses nothing. -/
theorem round_positive {m : ℕ} (pos : 0 < m) {e : ℤ} (least : -1074 ≤ e) :
    ∃ r f, ∃ positive : 0 < r, UnpackedFloat.round Format.binary64 .positive m e = .finite .positive r f positive ∧
      Nearest (binaryValue m e) (lastExponent m e) r f ∧ (2 ^ 52 ≤ r ∨ f = -1074) := by
  obtain ⟨one, lt, full⟩ := scaled_bounds pos least
  have smallest : -1074 ≤ lastExponent m e := le_max_right _ _
  let k := (e - lastExponent m e).toNat
  have room : e - k ≤ lastExponent (m <<< k) (e - k) := by
    rw [lastExponent_shiftLeft pos]
    omega
  obtain ⟨em, shifted, stands⟩ := shift_stands (m <<< k) room
  rw [lastExponent_shiftLeft pos] at shifted stands
  rw [scaled_eq, binaryValue_shiftLeft, ← scaled_eq] at stands
  have rounded := stands.roundedMantissa
  have lower : (1 : ℤ) ≤ em.roundedMantissa := rounded ▸ le_roundHalfEven (by exact_mod_cast one)
  have upper : (em.roundedMantissa : ℤ) ≤ 2 ^ 53 := rounded ▸ roundHalfEven_le (by push_cast; exact lt.le)
  have filled : 2 ^ 52 ≤ em.roundedMantissa ∨ lastExponent m e = -1074 :=
    full.imp_left fun many => by
      have : (2 ^ 52 : ℤ) ≤ em.roundedMantissa := rounded ▸ le_roundHalfEven (by push_cast; exact many)
      exact_mod_cast this
  have bounded : em.roundedMantissa ≤ 2 ^ 53 := by exact_mod_cast upper
  have unfolded : UnpackedFloat.round Format.binary64 .positive m e =
      roundWithAccuracy Format.binary64 .positive (m <<< k) (e - k) .exact := by
    unfold UnpackedFloat.round decreaseExponent
    rw [targetExponent_eq]
  rw [unfolded]
  unfold roundWithAccuracy
  rw [shifted]
  simp only [shift_rounded bounded smallest]
  rw [scaled_eq] at rounded
  by_cases carry : em.roundedMantissa = 2 ^ 53
  · simp only [carry, if_true]
    refine ⟨2 ^ 52, lastExponent m e + 1, by norm_num, rfl, .inr ⟨?_, rfl, rfl⟩, .inl le_rfl⟩
    rw [← rounded, carry]
    norm_num
  · simp only [carry, if_false]
    have positive : em.roundedMantissa ≠ 0 := by omega
    rw [dif_neg positive]
    exact ⟨_, _, by omega, rfl, .inl ⟨by omega, rounded, rfl⟩, filled⟩

/-! ## Overflow -/

/-- The least number that is rounded to infinity, half of the last place above `(2 ^ 53 - 1) * 2 ^ 971`. -/
def overflowBound : ℚ := binaryValue (2 ^ 54 - 1) 970

theorem overflowBound_eq : overflowBound = (2 ^ 54 - 1) * 2 ^ (970 : ℤ) := by
  rw [overflowBound, binaryValue]
  norm_num

theorem largest_place : (2 : ℚ) ^ (971 : ℤ) = 2 * 2 ^ (970 : ℤ) := by
  rw [show (971 : ℤ) = 1 + 970 by norm_num, zpow_add₀ two_ne_zero, zpow_one]

/-- On the last place a number overflows if it is rounded to a bit too many, and above it always. -/
theorem Nearest.overflow_iff {m : ℕ} (pos : 0 < m) {e : ℤ} (least : -1074 ≤ e) {r : ℕ} {f : ℤ}
    (h : Nearest (binaryValue m e) (lastExponent m e) r f) : 971 < f ↔ overflowBound ≤ binaryValue m e := by
  obtain ⟨_, lt, full⟩ := scaled_bounds pos least
  rw [scaled_eq] at lt full
  rw [overflowBound_eq]
  generalize binaryValue m e = x at *
  generalize lastExponent m e = unit at *
  have place : (0 : ℚ) < 2 ^ unit := by positivity
  rw [div_lt_iff₀ place] at lt
  rw [le_div_iff₀ place] at full
  have low : unit ≤ 970 → (2 : ℚ) ^ unit ≤ 2 ^ (970 : ℤ) := zpow_le_zpow_right₀ one_le_two
  have high : 972 ≤ unit → (2 : ℚ) ^ (2 : ℤ) * 2 ^ (970 : ℤ) ≤ 2 ^ unit := fun le => by
    rw [← zpow_add₀ two_ne_zero]
    exact zpow_le_zpow_right₀ one_le_two le
  have last : unit = 971 → (2 : ℚ) ^ unit = 2 * 2 ^ (970 : ℤ) := fun same => by rw [same, largest_place]
  have half : (0 : ℚ) < 2 ^ (970 : ℤ) := by positivity
  generalize (2 : ℚ) ^ (970 : ℤ) = u at *
  rcases lt_trichotomy unit 971 with below | at_last | above
  · have := low (by omega)
    refine iff_of_false ?_ (not_le.mpr (by linarith))
    obtain ⟨_, _, rfl⟩ | ⟨_, _, rfl⟩ := h <;> omega
  · have carry : 971 < f ↔ ((2 ^ 53 : ℤ)) ≤ roundHalfEven (x / 2 ^ unit) := by
      obtain ⟨fits, rounded, rfl⟩ | ⟨rounded, _, rfl⟩ := h <;> rw [← rounded]
      · exact iff_of_false (by omega) (by exact_mod_cast not_le.mpr fits)
      · exact iff_of_true (by omega) le_rfl
    rw [carry, le_roundHalfEven_iff (by norm_num), le_div_iff₀ place, last at_last]
    push_cast
    constructor <;> intro h <;> linarith
  · have := high (by omega)
    have enough := full.resolve_right (by omega)
    refine iff_of_true ?_ (by linarith)
    obtain ⟨_, _, rfl⟩ | ⟨_, _, rfl⟩ := h <;> omega

end Binary64

end InequalityLayer
