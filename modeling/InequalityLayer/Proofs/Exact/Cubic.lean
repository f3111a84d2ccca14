import InequalityLayer.Proofs.Constraint.Differences
import Mathlib

/-!
Central differences of a cubic polynomial, over the rationals. A component of its gradient has no variable to a
higher power than the second (`exponent_le_two`), and for such a polynomial the difference over both sides of a
point is the derivative there, whatever the step (`eval_sub_eval`). So a constraint with this gradient computes the
matrix of second derivatives of the polynomial (`hessianAt_cubic`), and answers as it does with a function for
them: `contribution_cubic`.
-/
namespace InequalityLayer
set_option autoImplicit false
open MvPolynomial

/-- The value at stacked coordinates. A variable behind the last coordinate is zero. -/
noncomputable def valueAt (p : MvPolynomial ℕ ℚ) (y : List ℚ) : ℚ := eval (fun j => y.getD j 0) p

/-! ## Powers in a derivative -/

section Powers

variable {p : MvPolynomial ℕ ℚ} {k : ℕ} {m : ℕ →₀ ℕ}

theorem add_single_mem_support (mem : m ∈ (pderiv k p).support) : m + Finsupp.single k 1 ∈ p.support := by
  rw [mem_support_iff, coeff_pderiv] at mem
  rw [mem_support_iff]
  exact left_ne_zero_of_mul mem

theorem exponent_le_two (cubic : p.totalDegree ≤ 3) (mem : m ∈ (pderiv k p).support) (i : ℕ) : m i ≤ 2 := by
  have degree : (m + Finsupp.single k 1).degree ≤ 3 := (le_totalDegree (add_single_mem_support mem)).trans cubic
  rw [map_add, Finsupp.degree_single] at degree
  have := Finsupp.le_degree i m
  omega

theorem pderiv_pderiv_comm (p : MvPolynomial ℕ ℚ) (i k : ℕ) : pderiv i (pderiv k p) = pderiv k (pderiv i p) := by
  ext m
  rw [coeff_pderiv, coeff_pderiv, coeff_pderiv, coeff_pderiv, add_right_comm]
  by_cases same : i = k
  · subst same
    rfl
  · simp [same, Ne.symm same]
    ring

end Powers

/-! ## Both sides of a point -/

section Sides

variable (a : ℕ → ℚ) (i : ℕ) (m : ℕ →₀ ℕ) (r : ℚ)

theorem eval_update_monomial (t : ℚ) :
    eval (Function.update a i t) (monomial m r) = r * (t ^ m i * (m.erase i).prod fun j e => a j ^ e) := by
  rw [eval_monomial, ← Finsupp.mul_prod_erase' m i _ fun _ => pow_zero _, Function.update_self]
  congr 2
  apply Finsupp.prod_congr
  intro j mem
  rw [Finsupp.support_erase, Finset.mem_erase] at mem
  rw [Function.update_of_ne mem.1]

theorem eval_pderiv_monomial :
    eval a (pderiv i (monomial m r)) = r * (m i * a i ^ (m i - 1) * (m.erase i).prod fun j e => a j ^ e) := by
  have others : (m - Finsupp.single i 1).erase i = m.erase i := by
    ext j
    by_cases same : j = i <;> simp [same]
  have value := eval_update_monomial a i (m - Finsupp.single i 1) (r * m i) (a i)
  rw [Function.update_eq_self, others, Finsupp.tsub_apply, Finsupp.single_eq_same] at value
  rw [pderiv_monomial, value]
  ring

theorem pow_add_sub_pow_sub {e : ℕ} (low : e ≤ 2) (t h : ℚ) : (t + h) ^ e - (t - h) ^ e = 2 * h * (e * t ^ (e - 1)) := by
  interval_cases e <;> norm_num <;> ring

/-- One monomial after the other: the other variables are a common factor, and what is left is a power. -/
theorem eval_sub_eval {p : MvPolynomial ℕ ℚ} (low : ∀ m ∈ p.support, m i ≤ 2) (h : ℚ) :
    eval (Function.update a i (a i + h)) p - eval (Function.update a i (a i - h)) p =
      2 * h * eval a (pderiv i p) := by
  rw [← p.support_sum_monomial_coeff]
  simp only [map_sum]
  rw [← Finset.sum_sub_distrib, Finset.mul_sum]
  refine Finset.sum_congr rfl fun m mem => ?_
  rw [eval_update_monomial, eval_update_monomial, eval_pderiv_monomial, ← mul_sub, ← sub_mul,
    pow_add_sub_pow_sub (low m mem)]
  ring

end Sides

theorem valueAt_modify (p : MvPolynomial ℕ ℚ) {y : List ℚ} {i : ℕ} (hi : i < y.length) (move : ℚ → ℚ) :
    valueAt p (y.modify i move) =
      eval (Function.update (fun j => y.getD j 0) i (move (y.getD i 0))) p := by
  unfold valueAt
  congr 2
  funext j
  by_cases same : j = i
  · subst same
    rw [Function.update_self, List.getD_eq_getElem _ _ (by rwa [List.length_modify]), List.getElem_modify,
      if_pos rfl, List.getD_eq_getElem _ _ hi]
  · rw [Function.update_of_ne same, List.getD_eq_getElem?_getD, List.getElem?_modify, List.getD_eq_getElem?_getD]
    simp [Ne.symm same]

theorem centralDifference_valueAt {p : MvPolynomial ℕ ℚ} {i : ℕ} (low : ∀ m ∈ p.support, m i ≤ 2) {y : List ℚ}
    (hi : i < y.length) {step : ℚ} (nonzero : step ≠ 0) :
    (valueAt p (y.modify i (· + step)) - valueAt p (y.modify i (· - step))) / (2.0 * step) =
      valueAt (pderiv i p) y := by
  rw [valueAt_modify p hi, valueAt_modify p hi, eval_sub_eval _ i low step, two_rat]
  exact mul_div_cancel_left₀ _ (mul_ne_zero two_ne_zero nonzero)

/-! ## Constraints with the gradient of a cubic -/

/-- The function fills in the second derivatives of a polynomial, at points with `n` coordinates. -/
def Derivative.IsHessianOf (f : Derivative ℚ) (n : ℕ) (p : MvPolynomial ℕ ℚ) : Prop :=
  ∀ y buffer, y.length = n → buffer.length = n * n →
    f.fill y buffer = tabulate n n fun i k => valueAt (pderiv i (pderiv k p)) y

namespace SmoothConstraint

variable {c : SmoothConstraint ℚ} {p : MvPolynomial ℕ ℚ}

/-- The gradient is filled in whole, with the derivatives of a polynomial. -/
def HasGradientOf (c : SmoothConstraint ℚ) (p : MvPolynomial ℕ ℚ) : Prop :=
  c.gradient.Writes c.layout.dim c.layout.dim fun k y => valueAt (pderiv k p) y

theorem hessianAt_cubic (differences : c.hessian? = none) (cubic : p.totalDegree ≤ 3) (gradient : c.HasGradientOf p)
    (nonzero : c.differenceStep ≠ 0) {y : List ℚ} (length : y.length = c.layout.dim) :
    c.hessianAt y = tabulate c.layout.dim c.layout.dim fun i k => valueAt (pderiv i (pderiv k p)) y := by
  refine hessianAt_eq_tabulate differences length gradient (fun i _ k _ => by rw [pderiv_pderiv_comm])
    fun i hi k _ => ?_
  rw [pderiv_pderiv_comm]
  exact centralDifference_valueAt (fun m mem => exponent_le_two cubic mem i) (length ▸ hi) nonzero

/-- Without a function for second derivatives, a constraint with the gradient of a cubic polynomial answers as it
does with the second derivatives of that polynomial. -/
theorem contribution_cubic (differences : c.hessian? = none) (cubic : p.totalDegree ≤ 3)
    (gradient : c.HasGradientOf p) (nonzero : c.differenceStep ≠ 0) {hessian : Derivative ℚ}
    (second : hessian.IsHessianOf c.layout.dim p) (x duals : Assignment ℚ) :
    c.contribution x duals = { c with hessian? := some hessian }.contribution x duals := by
  symm
  apply contribution_of_hessianAt
  intro y length
  rw [hessianAt_cubic differences cubic gradient nonzero length]
  refine second y _ length ?_
  rw [length_zeros, length]

/-- A polynomial with both kinds of cubic terms. -/
noncomputable def crossed : MvPolynomial ℕ ℚ := X 0 ^ 2 * X 1 + X 1 ^ 3

theorem totalDegree_crossed : crossed.totalDegree ≤ 3 := by
  have mixed : (X 0 ^ 2 * X 1 : MvPolynomial ℕ ℚ).totalDegree ≤ 3 :=
    (totalDegree_mul _ _).trans (by rw [totalDegree_X_pow, totalDegree_X])
  exact (totalDegree_add _ _).trans (max_le mixed (totalDegree_X_pow 1 3).le)

def crossedConstraint : SmoothConstraint ℚ where
  layout := [(⟨1⟩, 1), (⟨2⟩, 1)]
  dualKey := ⟨7⟩
  value y := y.getD 0 0 ^ 2 * y.getD 1 0 + y.getD 1 0 ^ 3
  gradient y _ := [2 * y.getD 0 0 * y.getD 1 0, y.getD 0 0 ^ 2 + 3 * y.getD 1 0 ^ 2]
  differenceStep := 1 / 2

def crossedHessian : Derivative ℚ := fun y _ => [2 * y.getD 1 0, 2 * y.getD 0 0, 2 * y.getD 0 0, 6 * y.getD 1 0]

theorem pderiv_zero_crossed : pderiv 0 crossed = C 2 * X 0 * X 1 := by
  rw [map_ofNat C 2]
  simp [crossed]
  ring

theorem pderiv_one_crossed : pderiv 1 crossed = X 0 ^ 2 + C 3 * X 1 ^ 2 := by
  rw [map_ofNat C 3]
  simp [crossed]

theorem hasGradientOf_crossed : crossedConstraint.HasGradientOf crossed := by
  intro y buffer length room k hk
  obtain ⟨a, b, rfl⟩ := List.length_eq_two.mp length
  obtain ⟨p, q, rfl⟩ := List.length_eq_two.mp room
  rw [if_pos hk]
  replace hk : k < 2 := hk
  interval_cases k
  · simp [pderiv_zero_crossed, Derivative.fill, overwrite, crossedConstraint, valueAt]
  · simp [pderiv_one_crossed, Derivative.fill, overwrite, crossedConstraint, valueAt]

theorem isHessianOf_crossed : crossedHessian.IsHessianOf 2 crossed := by
  intro y buffer length room
  obtain ⟨a, b, rfl⟩ := List.length_eq_two.mp length
  rw [Derivative.fill, overwrite_of_length room]
  simp [tabulate, List.range_succ, pderiv_zero_crossed, pderiv_one_crossed, crossedHessian, valueAt]
  constructor <;> ring

theorem contribution_cubic_crossed :
    ∃ term, crossedConstraint.contribution (.ofList [(⟨1⟩, [1]), (⟨2⟩, [2])]) (.ofList [(⟨7⟩, [2])]) =
      .ok (some term) ∧ term.curvature = [-8, -4, -4, -24] := by
  rw [contribution_cubic rfl totalDegree_crossed hasGradientOf_crossed (by decide +kernel) isHessianOf_crossed]
  exact ⟨_, rfl, by decide +kernel⟩

end SmoothConstraint

end InequalityLayer
