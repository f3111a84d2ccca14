import InequalityLayer.Proofs.Constraint.Differences
import InequalityLayer.Proofs.Exact.LocalModel
import Mathlib

/-!
Quadratic constraints over the rationals. A `Quadratic` is `½ yᵀQy + cᵀy + d` with symmetric `Q`, and
`Represents` says that a smooth constraint computes one: its value and gradient do, and so do its second
derivatives where they are given. Central differences of an affine gradient are exact whatever their step
(`centralDifference_slopeAt`), so the matrix is `Q` either way (`Represents.hessianAt_eq`), and the two local
models together are the constraint (`Quadratic.value_add`).
-/
namespace InequalityLayer
set_option autoImplicit false
open Finset

structure Quadratic (n : ℕ) where
  curvature : ℕ → ℕ → ℚ
  slope : ℕ → ℚ
  constant : ℚ
  symmetric : ∀ i < n, ∀ k < n, curvature i k = curvature k i

namespace Quadratic

variable {n : ℕ} (q : Quadratic n)

/-- The bilinear form `aᵀQb`. -/
def form (a b : List ℚ) : ℚ :=
  ∑ i ∈ range n, ∑ k ∈ range n, q.curvature i k * (a.getD i 0 * b.getD k 0)

def value (y : List ℚ) : ℚ := 1 / 2 * q.form y y + ∑ i ∈ range n, q.slope i * y.getD i 0 + q.constant

/-- Component `k` of the gradient `Qy + c`. -/
def slopeAt (y : List ℚ) (k : ℕ) : ℚ := ∑ i ∈ range n, q.curvature k i * y.getD i 0 + q.slope k

def gradient (y : List ℚ) : List ℚ := (List.range n).map (q.slopeAt y)

def hessian : List ℚ := tabulate n n q.curvature

theorem length_gradient (y : List ℚ) : (q.gradient y).length = n := by
  rw [gradient, List.length_map, List.length_range]

theorem getD_gradient (y : List ℚ) {k : ℕ} (hk : k < n) : (q.gradient y).getD k 0 = q.slopeAt y k := by
  rw [gradient, List.getD_eq_getElem _ _ (by simpa using hk)]
  simp

/-! ## Taylor expansion -/

theorem form_comm (a b : List ℚ) : q.form a b = q.form b a := by
  unfold form
  rw [sum_comm]
  refine sum_congr rfl fun i hi => sum_congr rfl fun k hk => ?_
  rw [q.symmetric k (mem_range.mp hk) i (mem_range.mp hi), mul_comm (a.getD k 0)]

theorem form_add {y d : List ℚ} (hy : y.length = n) (hd : d.length = n) :
    q.form (List.zipWith (· + ·) y d) (List.zipWith (· + ·) y d) =
      q.form y y + 2 * q.form d y + q.form d d := by
  have expand : q.form (List.zipWith (· + ·) y d) (List.zipWith (· + ·) y d) =
      q.form y y + q.form y d + q.form d y + q.form d d := by
    unfold form
    simp only [← sum_add_distrib]
    refine sum_congr rfl fun i hi => sum_congr rfl fun k hk => ?_
    have hi := mem_range.mp hi
    have hk := mem_range.mp hk
    rw [getD_zipWith _ _ _ i 0 0 0 (by omega) (by omega), getD_zipWith _ _ _ k 0 0 0 (by omega) (by omega)]
    ring
  rw [expand, q.form_comm y d]
  ring

theorem dot_gradient (y : List ℚ) {d : List ℚ} (hd : d.length = n) :
    dot (q.gradient y) d = q.form d y + ∑ i ∈ range n, q.slope i * d.getD i 0 := by
  rw [dot_eq_sum _ hd, form, ← sum_add_distrib]
  refine sum_congr rfl fun k hk => ?_
  rw [q.getD_gradient y (mem_range.mp hk), slopeAt, add_mul, sum_mul]
  congr 1
  refine sum_congr rfl fun i _ => ?_
  ring

theorem value_add {y d : List ℚ} (hy : y.length = n) (hd : d.length = n) :
    q.value (List.zipWith (· + ·) y d) = q.value y + dot (q.gradient y) d + 1 / 2 * q.form d d := by
  have linear : ∑ i ∈ range n, q.slope i * (List.zipWith (· + ·) y d).getD i 0 =
      ∑ i ∈ range n, q.slope i * y.getD i 0 + ∑ i ∈ range n, q.slope i * d.getD i 0 := by
    rw [← sum_add_distrib]
    refine sum_congr rfl fun i hi => ?_
    have hi := mem_range.mp hi
    rw [getD_zipWith _ _ _ i 0 0 0 (by omega) (by omega)]
    ring
  rw [value, value, q.form_add hy hd, linear, q.dot_gradient y hd]
  ring

theorem quadraticForm_hessian {d : List ℚ} (hd : d.length = n) : quadraticForm q.hessian d = q.form d d :=
  quadraticForm_tabulate q.curvature hd

/-! ## Central differences -/

theorem slopeAt_modify {y : List ℚ} (hy : y.length = n) {i : ℕ} (hi : i < n) (h : ℚ) (k : ℕ) :
    q.slopeAt (y.modify i (· + h)) k = q.slopeAt y k + q.curvature k i * h := by
  have coordinate : ∀ j ∈ range n, q.curvature k j * (y.modify i (· + h)).getD j 0 =
      q.curvature k j * y.getD j 0 + if j = i then q.curvature k j * h else 0 := by
    intro j hj
    have hj := mem_range.mp hj
    rw [List.getD_eq_getElem _ _ (by rw [List.length_modify]; omega), List.getElem_modify,
      List.getD_eq_getElem _ _ (by omega)]
    by_cases same : i = j
    · subst same
      simp [mul_add]
    · simp [same, Ne.symm same]
  rw [slopeAt, sum_congr rfl coordinate, sum_add_distrib, sum_ite_eq', if_pos (mem_range.mpr hi), slopeAt]
  ring

/-- The slope between two points is the same however far they are apart. -/
theorem centralDifference_slopeAt {y : List ℚ} (hy : y.length = n) {i : ℕ} (hi : i < n) {step : ℚ}
    (nonzero : step ≠ 0) (k : ℕ) : centralDifference (fun k y => q.slopeAt y k) step y k i = q.curvature k i := by
  have behind : y.modify i (· - step) = y.modify i (· + -step) := by simp only [sub_eq_add_neg]
  simp only [centralDifference, behind]
  rw [q.slopeAt_modify hy hi, q.slopeAt_modify hy hi, two_rat]
  field_simp
  ring

/-! ## Constraints that compute one -/

/-- The smooth constraint computes the quadratic function. -/
structure Represents (c : SmoothConstraint ℚ) (q : Quadratic c.layout.dim) : Prop where
  value : ∀ y, y.length = c.layout.dim → c.value y = q.value y
  gradient : ∀ y buffer, y.length = c.layout.dim → buffer.length = c.layout.dim →
    c.gradient.fill y buffer = q.gradient y
  hessian : ∀ hessian, c.hessian? = some hessian → ∀ y buffer, y.length = c.layout.dim →
    buffer.length = c.layout.dim * c.layout.dim → hessian.fill y buffer = q.hessian
  step : c.hessian? = none → c.differenceStep ≠ 0

namespace Represents

variable {c : SmoothConstraint ℚ} {q : Quadratic c.layout.dim} {y : List ℚ}

theorem gradientAt_eq (h : q.Represents c) (hy : y.length = c.layout.dim) : c.gradientAt y = q.gradient y :=
  h.gradient y _ hy ((SmoothConstraint.length_zeros _).trans hy)

theorem writes (h : q.Represents c) :
    c.gradient.Writes c.layout.dim c.layout.dim fun k y => q.slopeAt y k := by
  intro y buffer hy room k hk
  rw [h.gradient y buffer hy room, Quadratic.gradient, if_pos hk]
  simp [hk]

theorem hessianAt_eq (h : q.Represents c) (hy : y.length = c.layout.dim) : c.hessianAt y = q.hessian := by
  cases given : c.hessian? with
  | some hessian =>
    unfold SmoothConstraint.hessianAt
    rw [given]
    refine h.hessian hessian given y _ hy ?_
    rw [SmoothConstraint.length_zeros, hy]
  | none =>
    exact SmoothConstraint.hessianAt_eq_tabulate given hy h.writes q.symmetric fun i hi k _ =>
      q.centralDifference_slopeAt hy hi (h.step given) k

end Represents

/-- The smooth constraint that is the quadratic function, with its second derivatives or by differences. -/
def toSmooth (L : Layout) (q : Quadratic L.dim) (dualKey : Key) (given : Bool) (step : ℚ) :
    SmoothConstraint ℚ where
  layout := L
  dualKey
  value := q.value
  gradient y _ := q.gradient y
  hessian? := if given then some fun _ _ => q.hessian else none
  differenceStep := step

theorem represents_toSmooth (L : Layout) (q : Quadratic L.dim) (dualKey : Key) (given : Bool) {step : ℚ}
    (nonzero : step ≠ 0) : Represents (q.toSmooth L dualKey given step) q where
  value _ _ := rfl
  gradient y _ _ room := overwrite_of_length (room.trans (q.length_gradient y).symm)
  hessian hessian filled _ _ _ room := by
    cases given with
    | false => cases filled
    | true =>
      cases filled
      exact overwrite_of_length (room.trans (length_tabulate _ _ _).symm)
  step _ := nonzero

end Quadratic

end InequalityLayer
