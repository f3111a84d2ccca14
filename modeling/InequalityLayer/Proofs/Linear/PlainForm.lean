import InequalityLayer.Proofs.Binary64.Zero
import InequalityLayer.Proofs.Positions.Dense
import Mathlib

/-!
Quadratic forms without the shortcut. `plainForm` adds every row to the value, also those of zero coordinates that
`quadraticForm` leaves out. In binary64 a row left out would have added a zero of either sign, which changes nothing
because the value so far is never the negative zero (`formTo_ne_negZero`); that is if the row is finite, else nothing
would be left of the value (`plainTo_eq_nan`). Main statement: `plainForm_eq_quadraticForm`.
-/
namespace InequalityLayer.ByPosition
set_option autoImplicit false

/-! ## Row after row -/

section Rows

variable {α : Type} [Scalar α]

/-- Row `i` of `A` added to the value, whatever its coordinate is. -/
def addAnyRow (a x : List α) (n : ℕ) (s : α) (i : ℕ) : Except Fault α := do
  let coordinate ← entryAt x i
  let entries ← segment a (i * n) ((i + 1) * n)
  return s + coordinate * dot entries x

/-- The value `xᵀ A x` as the sum of all rows. -/
def plainForm (a x : List α) (n : ℕ) : Except Fault α := (List.range n).foldlM (addAnyRow a x n) 0.0

/-- The sum of all rows of the first coordinates, `m` of them. -/
def plainTo (a x : List α) (m : ℕ) : α :=
  (x.zipIdx.take m).foldl (fun s p => s + p.1 * dot (row a x.length p.2) x) 0.0

variable {a x : List α} {m : ℕ}

theorem plainTo_succ (below : m < x.length) :
    plainTo a x (m + 1) = plainTo a x m + x[m] * dot (row a x.length m) x := by
  unfold plainTo
  rw [take_succ_zipIdx x below, List.foldl_concat]

theorem plainForm_eq_plainTo (square : a.length = x.length * x.length) :
    plainForm a x x.length = .ok (plainTo a x x.length) := by
  refine foldlM_range (plainTo a x) x.length fun i below => ?_
  rw [plainTo_succ below, addAnyRow, entryAt, dif_pos below, segment_row square below]
  rfl

end Rows

/-! ## In binary64 -/

open Binary64

variable {a x : List Float} {m : ℕ}

theorem formTo_ne_negZero (a : List Float) (within : m ≤ x.length) : formTo a x m ≠ -0.0 := by
  induction m with
  | zero => exact (by decide : (0.0 : Float) ≠ -0.0)
  | succ m ih =>
    have before := ih (by omega)
    rw [formTo_succ within]
    split
    · exact before
    · exact fun sum => before (add_eq_negZero sum).1

/-- As long as the rows left out are finite, they make no difference. -/
theorem plainTo_eq_formTo (within : m ≤ x.length)
    (finite : ∀ i (below : i < x.length), i < m → IsZero x[i] → (dot (row a x.length i) x).isFinite = true) :
    plainTo a x m = formTo a x m := by
  induction m with
  | zero => rfl
  | succ m ih =>
    have before := ih (by omega) fun i below less => finite i below (by omega)
    rw [plainTo_succ within, formTo_succ within, before]
    by_cases zero : IsZero x[m]
    · have added : IsZero (x[m] * dot (row a x.length m) x) := by
        rw [mul_swap]
        exact isZero_mul (finite m within m.lt_succ_self zero) zero
      rw [if_pos (agrees_zero_iff.mpr zero), add_isZero added (formTo_ne_negZero a (by omega))]
    · rw [if_neg (mt agrees_zero_iff.mp zero)]

/-- From the first row left out that is not finite on, the sum is no number. -/
theorem plainTo_eq_nan {i : ℕ} (below : i < x.length) (zero : IsZero x[i])
    (infinite : (dot (row a x.length i) x).isFinite = false) (after : i < m) (within : m ≤ x.length) :
    plainTo a x m = Float.nan := by
  induction m, after using Nat.le_induction with
  | base => rw [plainTo_succ below, mul_swap, mul_isZero_of_not_finite infinite zero, add_swap, nan_add]
  | succ m _ ih => rw [plainTo_succ within, ih (by omega), nan_add]

/-- The value of a quadratic form, in every bit, is the sum of all rows in order if each of them is finite. In general
the two are the same unless a row of a zero coordinate is not finite, or if both are no number. -/
theorem plainForm_eq_quadraticForm (a x : List Float) (n : ℕ) (square : a.length = n * n) (length : x.length = n) :
    ((∀ i < n, (dot (row a n i) x).isFinite = true) →
      plainForm a x n = .ok (InequalityLayer.quadraticForm a x)) ∧
    (plainForm a x n = .ok (InequalityLayer.quadraticForm a x) ↔
      (∀ i (below : i < x.length), IsZero x[i] → (dot (row a n i) x).isFinite = true) ∨
        InequalityLayer.quadraticForm a x = Float.nan) := by
  subst length
  have sum := plainForm_eq_plainTo square
  have same : (∀ i (below : i < x.length), IsZero x[i] → (dot (row a x.length i) x).isFinite = true) →
      plainForm a x x.length = .ok (InequalityLayer.quadraticForm a x) := by
    intro finite
    rw [sum, plainTo_eq_formTo le_rfl fun i below _ => finite i below, formTo_length]
  have lost : ¬ (∀ i (below : i < x.length), IsZero x[i] → (dot (row a x.length i) x).isFinite = true) →
      plainTo a x x.length = Float.nan := by
    intro infinite
    push Not at infinite
    obtain ⟨i, below, zero, infinite⟩ := infinite
    exact plainTo_eq_nan below zero (Bool.eq_false_of_not_eq_true infinite) below le_rfl
  refine ⟨fun finite => same fun i below _ => finite i below, ?_⟩
  by_cases finite : ∀ i (below : i < x.length), IsZero x[i] → (dot (row a x.length i) x).isFinite = true
  · exact iff_of_true (same finite) (.inl finite)
  · rw [sum, lost finite, Except.ok.injEq, or_iff_right finite, eq_comm]

/-- Along the first vector every row is finite, and the two left out add zeros of both signs. Along the second the row left
out is infinite. -/
theorem plainForm_eq_quadraticForm_signed :
    plainForm [1.0, -2.0, 3.0, 4.0, 5.0, 6.0, 7.0, -8.0, 9.0] [-0.0, 2.0, 0.0] 3 = .ok 20.0 ∧
    plainForm [1.0, -2.0, Float.inf, 4.0] [2.0, -0.0] 2 ≠
      .ok (InequalityLayer.quadraticForm [1.0, -2.0, Float.inf, 4.0] [2.0, -0.0]) := by
  obtain ⟨same, _⟩ :=
    plainForm_eq_quadraticForm [1.0, -2.0, 3.0, 4.0, 5.0, 6.0, 7.0, -8.0, 9.0] [-0.0, 2.0, 0.0] 3 rfl rfl
  obtain ⟨_, general⟩ := plainForm_eq_quadraticForm [1.0, -2.0, Float.inf, 4.0] [2.0, -0.0] 2 rfl rfl
  have value : InequalityLayer.quadraticForm [1.0, -2.0, 3.0, 4.0, 5.0, 6.0, 7.0, -8.0, 9.0] [-0.0, 2.0, 0.0] = 20.0 := by
    decide +kernel
  constructor
  · rw [same (by decide +kernel), value]
  · rw [ne_eq, general]
    rintro (finite | nan)
    · exact absurd (finite 1 (by decide) (.inr rfl)) (by decide +kernel)
    · exact absurd nan (by decide +kernel)

end InequalityLayer.ByPosition
