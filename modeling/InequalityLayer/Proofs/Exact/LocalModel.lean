import InequalityLayer.Linear.Inequality
import InequalityLayer.Proofs.Constraint.Smooth
import InequalityLayer.Proofs.Exact.Dense
import Mathlib

/-!
Local models over the rationals. Cut into blocks and evaluated block by block, the coefficient row of a
smooth constraint is the product of its gradient with the stacked step (`rowProduct_split`), whichever
variables the step leaves out. So the two models are what they look like: `g(y) + ∇g(y)·d` for the row
(`error_row`) and `½ dᵀGd` for a pure curvature term (`error_curvature`), so `-½ λ dᵀHd` for the term of a
constraint with multiplier `λ` (`error_contribution`).
-/
namespace InequalityLayer
set_option autoImplicit false

/-! ## Blocks -/

namespace JacobianFactor

theorem rowProduct_eq_sum (pairs : List (List ℚ × List ℚ)) (i : ℕ) :
    rowProduct pairs i = (pairs.map fun p => dot (row p.1 p.2.length i) p.2).sum := by
  rw [List.sum_eq_foldl, List.foldl_map, rowProduct, zero_rat]

theorem rowProduct_cons (p : List ℚ × List ℚ) (pairs : List (List ℚ × List ℚ)) (i : ℕ) :
    rowProduct (p :: pairs) i = dot (row p.1 p.2.length i) p.2 + rowProduct pairs i := by
  rw [rowProduct_eq_sum, rowProduct_eq_sum, List.map_cons, List.sum_cons]

theorem row_zero (block : List ℚ) (width : ℕ) (h : block.length = width) : row block width 0 = block := by
  rw [row, Nat.zero_mul, List.drop_zero, ← h, List.take_length]

/-- The blocks of a row that a step meets, one layout entry after the other. -/
theorem rowProduct_split {J : JacobianFactor ℚ} (one : J.rows = 1) {δ : Assignment ℚ} (L : Layout)
    {g d : List ℚ} (length : g.length = L.dim) (step : L.stackStep δ = .ok d) :
    ∃ met, (L.split g).mapM (J.meet δ) = .ok met ∧ rowProduct (met.filterMap id) 0 = dot g d := by
  induction L generalizing g d with
  | nil =>
    obtain rfl : [] = d := Except.ok.inj step
    refine ⟨[], rfl, ?_⟩
    rw [dot_nil_right]
    exact zero_rat
  | cons entry L ih =>
    obtain ⟨key, dim⟩ := entry
    obtain ⟨first, others, part, rest, rfl⟩ := Layout.stackStep_cons_eq_ok_iff.mp step
    have enough : dim + Layout.dim L = g.length := length.symm
    have blockLength : (g.take dim).length = dim := by rw [List.length_take]; omega
    obtain ⟨met, meets, product⟩ := ih (g := g.drop dim) (by rw [List.length_drop]; omega) rest
    have cut : dot g (first ++ others) = dot (g.take dim) first + dot (g.drop dim) others := by
      rw [← dot_append _ _ (blockLength.trans (Layout.length_stepPart part).symm), List.take_append_drop]
    rw [Layout.split, List.mapM_cons, meets, cut, meet]
    unfold Layout.stepPart at part
    cases move : δ.get? key with
    | none =>
      rw [move] at part
      cases part
      refine ⟨none :: met, rfl, ?_⟩
      rw [List.filterMap_cons_none rfl, product, zero_rat, dot_zeros, zero_add]
    | some e =>
      rw [move] at part
      obtain ⟨fits, rfl⟩ := (Layout.sized_eq_ok_iff _).mp part
      have width : first.length = J.width (g.take dim) := by
        rw [width, one, Nat.div_one, blockLength, fits]
      refine ⟨some (g.take dim, first) :: met, by simp [width, bind, Except.bind, pure, Except.pure], ?_⟩
      rw [List.filterMap_cons, ← product]
      exact (rowProduct_cons _ _ 0).trans (by rw [row_zero _ _ (blockLength.trans fits.symm)])

end JacobianFactor

/-! ## The two models -/

theorem SmoothConstraint.error_row (c : SmoothConstraint ℚ) {y d : List ℚ} {δ : Assignment ℚ}
    (length : y.length = c.layout.dim) (step : c.layout.stackStep δ = .ok d) :
    LinearInequality.error { jacobian := c.rowAt y, dualKey := c.dualKey } δ =
      .ok (c.value y + dot (c.gradientAt y) d) := by
  have gradient : (c.gradientAt y).length = c.layout.dim :=
    (length_overwrite _ _).trans ((length_zeros _).trans length)
  obtain ⟨met, meets, product⟩ :=
    JacobianFactor.rowProduct_split (J := c.rowAt y) rfl c.layout gradient step
  have overlap : (c.rowAt y).overlap δ = .ok (met.filterMap id) := by
    unfold JacobianFactor.overlap
    rw [show (c.rowAt y).terms = c.layout.split (c.gradientAt y) from rfl, meets]
    rfl
  unfold LinearInequality.error LinearInequality.product
  rw [overlap, Except.map_ok, Except.map_ok, product]
  congr 1
  show dot (c.gradientAt y) d - -c.value y = _
  ring

theorem HessianFactor.error_curvature (H : HessianFactor ℚ) {δ : Assignment ℚ} {d : List ℚ}
    (step : H.layout.stackStep δ = .ok d) (linear : H.linear = SmoothConstraint.zeros H.layout.dim)
    (constant : H.constant = 0.0) : H.error δ = .ok (1 / 2 * quadraticForm H.curvature d) := by
  have zeros : SmoothConstraint.zeros H.layout.dim = List.replicate H.layout.dim (0 : ℚ) :=
    congrArg _ zero_rat
  unfold error
  rw [step, Except.map_ok, linear, zeros, constant, dot_comm, dot_zeros, half_rat, zero_rat, sub_zero,
    add_zero]

/-- The curvature of a constraint with a multiplier, weighted with its negative. -/
theorem SmoothConstraint.error_contribution (c : SmoothConstraint ℚ) {x δ duals : Assignment ℚ} {y d : List ℚ}
    (stacked : c.stack x = .ok y) (step : c.layout.stackStep δ = .ok d) {multiplier : ℚ}
    (entry : duals.scalar? c.dualKey = some multiplier) {term : HessianFactor ℚ}
    (ok : c.contribution x duals = .ok (some term)) :
    term.error δ = .ok (1 / 2 * (-multiplier * quadraticForm (c.hessianAt y) d)) := by
  obtain ⟨layout, curvature, linear, constant⟩ := c.isTermAt_of_contribution entry stacked ok
  rw [term.error_curvature (layout ▸ step) (layout ▸ linear) constant, curvature, quadraticForm_scale]

end InequalityLayer
