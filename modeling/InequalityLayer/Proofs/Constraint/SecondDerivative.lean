import InequalityLayer.Constraint.Smooth
import InequalityLayer.Proofs.Exact.Dense
import Mathlib

/-!
The matrix of second derivatives, entry by entry. Where no function for it is given, the gradient is taken ahead
of and behind each coordinate in turn (`gradientsTo`); `difference` is the quotient of the two in one component,
and an entry of the matrix is the mean of two opposite quotients. `secondDerivative` writes this out, and
`getD_hessianAt` is that the matrix a constraint computes has these entries. The order of operations is kept, so
this holds in every arithmetic.
-/
namespace InequalityLayer.SmoothConstraint
set_option autoImplicit false

variable {α : Type} [Scalar α] (c : SmoothConstraint α) (y : List α)

/-- What is in a buffer of gradients once the first coordinates, `columns` of them, have been moved in turn. -/
def gradientsTo (move : α → α) : ℕ → List α
  | 0 => zeros y.length
  | columns + 1 => c.gradient.fill (y.modify columns move) (gradientsTo move columns)

/-- The central difference of component `k` of the gradient along coordinate `i`. -/
def difference (k i : ℕ) : α :=
  ((c.gradientsTo y (· + c.differenceStep) (i + 1)).getD k 0.0 -
    (c.gradientsTo y (· - c.differenceStep) (i + 1)).getD k 0.0) / (2.0 * c.differenceStep)

/-- Entry `(i, k)` of the matrix: as it is given, or the mean of two opposite differences. -/
def secondDerivative (i k : ℕ) : α :=
  match c.hessian? with
  | some hessian => (hessian.fill y (zeros (y.length * y.length))).getD (i * y.length + k) 0.0
  | none =>
    if i = k then c.difference y i i
    else 0.5 * (c.difference y (min i k) (max i k) + c.difference y (max i k) (min i k))

/-! ## Columns of differences -/

theorem length_gradientsTo (move : α → α) (columns : ℕ) : (c.gradientsTo y move columns).length = y.length := by
  induction columns with
  | zero => exact List.length_replicate
  | succ columns ih => exact (length_overwrite _ _).trans ih

theorem differenceColumns_eq_map (start count : ℕ) :
    c.differenceColumns y (List.range' start count) (c.gradientsTo y (· + c.differenceStep) start)
        (c.gradientsTo y (· - c.differenceStep) start) =
      (List.range' start count).map fun i =>
        List.zipWith (fun a b => (a - b) / (2.0 * c.differenceStep))
          (c.gradientsTo y (· + c.differenceStep) (i + 1)) (c.gradientsTo y (· - c.differenceStep) (i + 1)) := by
  induction count generalizing start with
  | zero => rfl
  | succ count ih =>
    rw [List.range'_succ, List.map_cons, ← ih (start + 1)]
    rfl

theorem getD_differenceColumns {k i : ℕ} (hk : k < y.length) (hi : i < y.length) :
    ((c.differenceColumns y (List.range y.length) (zeros y.length) (zeros y.length)).getD i []).getD k 0.0 =
      c.difference y k i := by
  have columns : c.differenceColumns y (List.range y.length) (zeros y.length) (zeros y.length) =
      (List.range y.length).map fun i => List.zipWith (fun a b => (a - b) / (2.0 * c.differenceStep))
        (c.gradientsTo y (· + c.differenceStep) (i + 1)) (c.gradientsTo y (· - c.differenceStep) (i + 1)) := by
    rw [List.range_eq_range']
    exact c.differenceColumns_eq_map y 0 y.length
  rw [columns, List.getD_eq_getElem (n := i) _ [] (by simpa using hi), List.getElem_map, List.getElem_range,
    getD_zipWith _ _ _ k 0.0 0.0 0.0 (by rwa [length_gradientsTo]) (by rwa [length_gradientsTo])]
  rfl

/-! ## Entries -/

theorem entryOf_tabulate {n i k : ℕ} (f : ℕ → ℕ → α) (hi : i < n) (hk : k < n) :
    entryOf (tabulate n n f) n i k = f i k :=
  getD_tabulate f hi hk 0.0

theorem getD_hessianAt {i k : ℕ} (hi : i < y.length) (hk : k < y.length) :
    (c.hessianAt y).getD (i * y.length + k) 0.0 = c.secondDerivative y i k := by
  unfold hessianAt secondDerivative
  cases c.hessian? with
  | some hessian => rfl
  | none =>
    change (c.differenceHessian y).getD (i * y.length + k) 0.0 = _
    have low : min i k < y.length := (min_le_left i k).trans_lt hi
    have high : max i k < y.length := max_lt hi hk
    unfold differenceHessian symmetrize
    rw [getD_tabulate _ hi hk]
    simp only [entryOf_tabulate _ hi hk, entryOf_tabulate _ low high, entryOf_tabulate _ high low,
      getD_differenceColumns c y hi hk, getD_differenceColumns c y low high, getD_differenceColumns c y high low]
    by_cases same : i = k
    · subst same
      simp
    · simp [same]

end InequalityLayer.SmoothConstraint
