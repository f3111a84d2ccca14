import InequalityLayer.Linear.Dense
import InequalityLayer.Proofs.Binary64.Sum
import Mathlib

/-!
Zeros of either sign. A finite number times a zero is a zero (`isZero_mul`), and nothing else is
(`mul_isZero_of_not_finite`); a zero that is added changes no number but the negative zero (`add_isZero`), and a sum is
the negative zero only if both summands are (`add_eq_negZero`). Numbers with the same sign, significand and exponent are
the same (`eq_of_unpack`), so each of these is a question about unpacked numbers.
-/
namespace InequalityLayer.Binary64
set_option autoImplicit false
open Float.Model UnpackedFloat

/-! ## Unpacked zeros -/

theorem eq_of_unpack {a b : Float} (same : a.toModel.unpack = b.toModel.unpack) : a = b := by
  obtain ⟨⟨v, first⟩⟩ := a
  obtain ⟨⟨w, second⟩⟩ := b
  have words : v.toBitVec = w.toBitVec := by
    rw [← pack_unpack_of_valid first, ← pack_unpack_of_valid second]
    exact congrArg (UnpackedFloat.pack Format.binary64) same
  obtain rfl : v = w := UInt64.eq_of_toBitVec_eq words
  rfl

/-- A zero, whatever its sign. -/
def IsZero (a : Float) : Prop := a = 0.0 ∨ a = -0.0

theorem unpack_eq_negative_iff {a : Float} : a.toModel.unpack = .zero .negative ↔ a = -0.0 :=
  ⟨fun word => eq_of_unpack word, fun same => same ▸ rfl⟩

theorem isZero_iff_unpack {a : Float} : IsZero a ↔ ∃ s, a.toModel.unpack = .zero s := by
  constructor
  · rintro (rfl | rfl)
    · exact ⟨.positive, rfl⟩
    · exact ⟨.negative, rfl⟩
  · rintro ⟨s, word⟩
    cases s with
    | positive => exact .inl (eq_of_unpack word)
    | negative => exact .inr (eq_of_unpack word)

/-- Both zeros agree with zero, and nothing else does. -/
theorem agrees_zero_iff {a : Float} : Scalar.agrees a 0.0 = true ↔ IsZero a := by
  have compared : Scalar.agrees a 0.0 = (a.toModel.unpack.compare (.zero .positive) == some .eq) := rfl
  rw [compared, beq_iff_eq, isZero_iff_unpack]
  cases a.toModel.unpack with
  | notANumber => exact iff_of_false nofun nofun
  | infinity s => cases s <;> exact iff_of_false nofun nofun
  | zero s => exact iff_of_true rfl ⟨s, rfl⟩
  | finite s m e pos => cases s <;> exact iff_of_false nofun nofun

theorem finite_cases {a : Float} (finite : a.isFinite = true) :
    (∃ s, a.toModel.unpack = .zero s) ∨
      ∃ s m e, ∃ pos : 0 < m, a.toModel.unpack = .finite s m e pos ∧ Canonical m e ∧ e ≤ 971 := by
  change a.toModel.unpack.isFinite = true at finite
  cases word : a.toModel.unpack with
  | notANumber | infinity s =>
    rw [word] at finite
    cases finite
  | zero s => exact .inl ⟨s, rfl⟩
  | finite s m e pos => exact .inr ⟨s, m, e, pos, rfl, canonical_unpack word⟩

theorem value_eq_zero_iff {a : Float} (finite : a.isFinite = true) : value a = 0 ↔ IsZero a := by
  rw [isZero_iff_unpack, value]
  obtain ⟨s, word⟩ | ⟨s, m, e, pos, word, _⟩ := finite_cases finite
  · rw [word]
    exact iff_of_true rfl ⟨s, rfl⟩
  · rw [word]
    refine iff_of_false ?_ (by simp)
    have positive := binaryValue_pos pos e
    cases s with
    | positive => exact positive.ne'
    | negative => exact neg_ne_zero.mpr positive.ne'

theorem IsZero.isFinite {a : Float} (zero : IsZero a) : a.isFinite = true := by
  obtain rfl | rfl := zero
  · rfl
  · rfl

theorem isZero_abs {a : Float} (zero : IsZero a) : IsZero a.abs := by
  obtain rfl | rfl := zero
  · exact .inl rfl
  · exact .inl rfl

/-! ## Products -/

theorem unpack_mul (a b : Float) :
    (a * b).toModel.unpack =
      (Float.Model.pack (UnpackedFloat.mul Format.binary64 a.toModel.unpack b.toModel.unpack)).unpack := rfl

theorem isZero_mul {a z : Float} (finite : a.isFinite = true) (zero : IsZero z) : IsZero (a * z) := by
  obtain ⟨s, word⟩ := isZero_iff_unpack.mp zero
  rw [isZero_iff_unpack, unpack_mul, word]
  obtain ⟨t, left⟩ | ⟨t, m, e, pos, left, _⟩ := finite_cases finite
  · rw [left]
    exact ⟨t * s, unpack_pack_zero _⟩
  · rw [left]
    exact ⟨t * s, unpack_pack_zero _⟩

theorem mul_swap (a b : Float) : a * b = b * a := by
  have signs (s t : Sign) : s * t = t * s := by cases s <;> cases t <;> rfl
  apply eq_of_unpack
  rw [unpack_mul, unpack_mul]
  congr 2
  cases a.toModel.unpack with
  | notANumber => cases b.toModel.unpack <;> rfl
  | infinity s | zero s | finite s m e pos =>
    cases b.toModel.unpack <;> simp only [UnpackedFloat.mul, signs s, Nat.mul_comm, Int.add_comm]

theorem mul_isZero_of_not_finite {a z : Float} (infinite : a.isFinite = false) (zero : IsZero z) :
    a * z = Float.nan := by
  obtain ⟨s, word⟩ := isZero_iff_unpack.mp zero
  change a.toModel.unpack.isFinite = false at infinite
  rw [← unpack_eq_notANumber_iff, unpack_mul, word]
  cases factor : a.toModel.unpack with
  | notANumber | infinity t => exact unpack_pack_notANumber
  | zero t | finite t m e pos =>
    rw [factor] at infinite
    cases infinite

/-! ## Sums -/

theorem nan_add (a : Float) : Float.nan + a = Float.nan := by
  have word : Float.nan.toModel.unpack = .notANumber := rfl
  rw [← unpack_eq_notANumber_iff, unpack_add, word]
  exact unpack_pack_notANumber

theorem add_swap (a b : Float) : a + b = b + a := by
  apply eq_of_unpack
  rw [unpack_add, unpack_add]
  congr 2
  cases a.toModel.unpack with
  | notANumber => cases b.toModel.unpack <;> rfl
  | infinity s =>
    cases b.toModel.unpack with
    | infinity t => cases s <;> cases t <;> rfl
    | _ => rfl
  | zero s =>
    cases b.toModel.unpack with
    | zero t => cases s <;> cases t <;> rfl
    | _ => rfl
  | finite s m e pos =>
    cases b.toModel.unpack with
    | finite t n f pos =>
      simp only [UnpackedFloat.add, min_comm f e]
      rw [Int.add_comm]
    | _ => rfl

theorem isFinite_of_add {a b : Float} (h : (a + b).isFinite = true) : a.isFinite = true ∧ b.isFinite = true :=
  ⟨isFinite_left_of_add h, isFinite_left_of_add (add_swap a b ▸ h)⟩

/-- The sign of a number makes no difference to how it is rounded. -/
theorem round_sign (s : Sign) {m r : ℕ} {e f : ℤ} {pos : 0 < r}
    (rounded : UnpackedFloat.round Format.binary64 .positive m e = .finite .positive r f pos) :
    UnpackedFloat.round Format.binary64 s m e = .finite s r f pos := by
  unfold UnpackedFloat.round roundWithAccuracy at rounded ⊢
  dsimp only at rounded ⊢
  split at rounded
  · cases rounded
  · next nonzero =>
    cases rounded
    rw [dif_neg nonzero]

theorem round_ne_zero {s : Sign} {m : ℕ} (pos : 0 < m) {e : ℤ} (least : -1074 ≤ e) (t : Sign) :
    (Float.Model.pack (UnpackedFloat.round Format.binary64 s m e)).unpack ≠ .zero t := by
  obtain ⟨r, f, hr, rounded, nearest, full⟩ := round_positive pos least
  rw [round_sign s rounded]
  by_cases large : 971 < f
  · rw [unpack_pack_of_lt large]
    exact nofun
  · rw [unpack_pack_of_le (nearest.canonical (le_max_right _ _) full) (not_lt.mp large)]
    exact nofun

/-- Exact cancellation gives the positive zero. -/
theorem normalize_ne_negative {k e : ℤ} (least : -1074 ≤ e) :
    (Float.Model.pack (UnpackedFloat.normalize Format.binary64 k e .positive)).unpack ≠ .zero .negative := by
  unfold UnpackedFloat.normalize
  cases order : compare k 0 with
  | lt => exact round_ne_zero (by have := Int.compare_eq_lt.mp order; omega) least _
  | eq =>
    dsimp only
    rw [unpack_pack_zero]
    exact nofun
  | gt => exact round_ne_zero (by have := Int.compare_eq_gt.mp order; omega) least _

/-- A sum is the negative zero only if both summands are. -/
theorem add_eq_negZero {a b : Float} (sum : a + b = -0.0) : a = -0.0 ∧ b = -0.0 := by
  obtain ⟨fa, fb⟩ : a.isFinite = true ∧ b.isFinite = true := isFinite_of_add (sum ▸ rfl)
  rw [← unpack_eq_negative_iff, unpack_add] at sum
  rw [← unpack_eq_negative_iff, ← unpack_eq_negative_iff]
  obtain ⟨s, left⟩ | ⟨s, m, e, hm, left, canonical, small⟩ := finite_cases fa
  · obtain ⟨t, right⟩ | ⟨t, n, f, hn, right, canonical, small⟩ := finite_cases fb
    · rw [left, right] at sum ⊢
      cases s <;> cases t <;> cases sum
      exact ⟨rfl, rfl⟩
    · rw [left, right, add_zero_finite, unpack_pack_of_le canonical small] at sum
      cases sum
  · obtain ⟨t, right⟩ | ⟨t, n, f, hn, right, other, _⟩ := finite_cases fb
    · rw [left, right, add_finite_zero, unpack_pack_of_le canonical small] at sum
      cases sum
    · rw [left, right] at sum
      exact absurd sum (normalize_ne_negative (le_min canonical.least other.least))

theorem add_isZero {a z : Float} (zero : IsZero z) (notNegative : a ≠ -0.0) : a + z = a := by
  obtain ⟨s, word⟩ := isZero_iff_unpack.mp zero
  apply eq_of_unpack
  rw [unpack_add, word]
  cases left : a.toModel.unpack with
  | notANumber => cases s <;> rfl
  | infinity t => exact unpack_pack_infinity t
  | zero t =>
    cases t with
    | positive => cases s <;> rfl
    | negative => exact absurd (eq_of_unpack left) notNegative
  | finite t m e pos =>
    obtain ⟨canonical, small⟩ := canonical_unpack left
    exact unpack_pack_of_le canonical small

theorem isZero_add {a b : Float} (left : IsZero a) (right : IsZero b) : IsZero (a + b) := by
  obtain rfl | rfl := left
  · rw [add_isZero right (by decide)]
    exact .inl rfl
  · obtain rfl | rfl := right
    · exact .inl rfl
    · exact .inr rfl

/-! ## Sums of products -/

theorem isZero_sum {terms : List Float} (zeros : ∀ v ∈ terms, IsZero v) : IsZero (sum terms) := by
  have from_zero : ∀ {s : Float}, IsZero s → IsZero (terms.foldl (· + ·) s) := by
    induction terms with
    | nil => exact id
    | cons v terms ih =>
      obtain ⟨first, others⟩ := List.forall_mem_cons.mp zeros
      exact fun start => ih others (isZero_add start first)
  exact from_zero (.inr rfl)

theorem isZero_dot {a b : List Float} (finite : ∀ v ∈ a, v.isFinite = true) (zeros : ∀ v ∈ b, IsZero v) :
    IsZero (dot a b) := by
  refine isZero_sum fun v mem => ?_
  rw [← List.map_uncurry_zip_eq_zipWith] at mem
  obtain ⟨⟨x, z⟩, pair, rfl⟩ := List.mem_map.mp mem
  obtain ⟨left, right⟩ := List.of_mem_zip pair
  exact isZero_mul (finite x left) (zeros z right)

end InequalityLayer.Binary64
