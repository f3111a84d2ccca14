import InequalityLayer.Proofs.Constraint.SecondDerivative
import InequalityLayer.Proofs.Constraint.Smooth
import InequalityLayer.Proofs.Positions.Dense
import Mathlib

/-!
Curvature by central differences, entry by entry. `Derivative.Writes` says that a gradient fills the first entries
of its buffer with known components of the point and leaves the others, which then are zero after every number of
columns (`getElem?_gradientsTo`). So a quotient in column `i` is made of one component at two points and of nothing
else (`difference_eq_centralDifference`), and the term of a constraint with multiplier `λ` has the entries
`Dᵢᵢ * -λ` and `(0.5 * (Dᵢₖ + Dₖᵢ)) * -λ`, operation for operation: `contribution_differences`. Its matrix is
symmetric whatever the gradient does. Over the rationals it is the matrix of the quotients if that is symmetric
(`hessianAt_eq_tabulate`).
-/
namespace InequalityLayer
set_option autoImplicit false

variable {α : Type}

/-! ## Gradients with known components -/

/-- The first entries of a buffer, `count` of them, become the components `G` of the point, and the others stay as
they were. This is asked of points and buffers with `n` entries. -/
def Derivative.Writes (f : Derivative α) (n count : ℕ) (G : ℕ → List α → α) : Prop :=
  ∀ y buffer, y.length = n → buffer.length = n → ∀ k < n,
    (f.fill y buffer)[k]? = if k < count then some (G k y) else buffer[k]?

variable [Scalar α]

/-- Component `k`, or zero if it is none of the first, `count` of them. -/
def componentBelow (count : ℕ) (G : ℕ → List α → α) (k : ℕ) (y : List α) : α := if k < count then G k y else 0.0

/-- The difference of component `k` over both sides of coordinate `i`, divided by twice the step. -/
def centralDifference (G : ℕ → List α → α) (step : α) (y : List α) (k i : ℕ) : α :=
  (G k (y.modify i (· + step)) - G k (y.modify i (· - step))) / (2.0 * step)

theorem getD_scale_of_lt (a : List α) (factor : α) {p : ℕ} (inside : p < a.length) (x : α) :
    (scale a factor).getD p x = a.getD p x * factor := by
  unfold scale
  rw [List.getD_eq_getElem _ _ (by rwa [List.length_map]), List.getElem_map, List.getD_eq_getElem _ _ inside]

namespace SmoothConstraint

variable (c : SmoothConstraint α) {y : List α} {count : ℕ} {G : ℕ → List α → α}

section Columns

variable (writes : c.gradient.Writes y.length count G) (move : α → α) {k : ℕ} (hk : k < y.length)
include writes hk

/-- An entry that the gradient does not write keeps the zero it started with. -/
theorem getElem?_gradientsTo_of_le (unwritten : count ≤ k) (columns : ℕ) :
    (c.gradientsTo y move columns)[k]? = some 0.0 := by
  induction columns with
  | zero => simp [gradientsTo, zeros, hk]
  | succ columns ih =>
    rw [gradientsTo, writes _ _ (List.length_modify ..) (c.length_gradientsTo y move columns) k hk,
      if_neg (Nat.not_lt.mpr unwritten), ih]

/-- After a column, every entry belongs to the point of that column. -/
theorem getElem?_gradientsTo (column : ℕ) :
    (c.gradientsTo y move (column + 1))[k]? = some (componentBelow count G k (y.modify column move)) := by
  unfold componentBelow
  by_cases written : k < count
  · rw [gradientsTo, writes _ _ (List.length_modify ..) (c.length_gradientsTo y move column) k hk, if_pos written,
      if_pos written]
  · rw [if_neg written, c.getElem?_gradientsTo_of_le writes move hk (Nat.not_lt.mp written)]

omit move in
theorem difference_eq_centralDifference (i : ℕ) :
    c.difference y k i = centralDifference (componentBelow count G) c.differenceStep y k i := by
  unfold difference centralDifference
  simp only [List.getD_eq_getElem?_getD, c.getElem?_gradientsTo writes _ hk, Option.getD_some]

end Columns

/-! ## Entries of the matrix -/

theorem secondDerivative_symm (differences : c.hessian? = none) (y : List α) (i k : ℕ) :
    c.secondDerivative y i k = c.secondDerivative y k i := by
  unfold secondDerivative
  rw [differences]
  by_cases same : i = k
  · subst same
    rfl
  · simp only [if_neg same, if_neg (Ne.symm same), min_comm k i, max_comm k i]

theorem secondDerivative_diagonal (differences : c.hessian? = none) (y : List α) (i : ℕ) :
    c.secondDerivative y i i = c.difference y i i := by
  simp [secondDerivative, differences]

theorem secondDerivative_of_lt (differences : c.hessian? = none) (y : List α) {i k : ℕ} (above : i < k) :
    c.secondDerivative y i k = 0.5 * (c.difference y i k + c.difference y k i) := by
  simp [secondDerivative, differences, above.ne, min_eq_left above.le, max_eq_right above.le]

theorem entryOf_scale_hessianAt (y : List α) (factor : α) {i k : ℕ} (hi : i < y.length) (hk : k < y.length) :
    entryOf (scale (c.hessianAt y) factor) y.length i k = c.secondDerivative y i k * factor := by
  have inside : i * y.length + k < (c.hessianAt y).length := by
    rw [c.length_hessianAt]
    exact ByPosition.position_lt hi hk
  rw [entryOf, getD_scale_of_lt _ _ inside, c.getD_hessianAt y hi hk]

/-! ## The term of a constraint -/

/-- Without second derivatives a constraint with a multiplier answers a symmetric matrix, and zeros beside it,
whatever its gradient does. If the components of the gradient are known, so is every entry, with the operations in
the order they are done. There is an answer wherever there is room for the matrix. -/
theorem contribution_differences (differences : c.hessian? = none) {x duals : Assignment α} {multiplier : α}
    (stacked : c.stack x = .ok y) (entry : duals.scalar? c.dualKey = some multiplier) :
    (c.HasRoom → ∃ term, c.contribution x duals = .ok (some term)) ∧
    ∀ term : HessianFactor α, c.contribution x duals = .ok (some term) → term.layout = c.layout ∧
      term.linear = zeros c.layout.dim ∧ term.constant = 0.0 ∧
      (∀ i < c.layout.dim, ∀ k < c.layout.dim,
        entryOf term.curvature c.layout.dim i k = entryOf term.curvature c.layout.dim k i) ∧
      ∀ count G, c.gradient.Writes c.layout.dim count G →
        let D := centralDifference (componentBelow count G) c.differenceStep y
        (∀ i < c.layout.dim, entryOf term.curvature c.layout.dim i i = D i i * -multiplier) ∧
        ∀ i k, i < k → k < c.layout.dim →
          entryOf term.curvature c.layout.dim i k = (0.5 * (D i k + D k i)) * -multiplier ∧
          entryOf term.curvature c.layout.dim k i = (0.5 * (D i k + D k i)) * -multiplier := by
  refine ⟨fun room => ?_, fun term ok => ?_⟩
  · obtain ⟨term, ok, _⟩ := c.contribution_of_stack entry room stacked
    exact ⟨term, ok⟩
  obtain ⟨layout, curvature, linear, constant⟩ := c.isTermAt_of_contribution entry stacked ok
  have dim : c.layout.dim = y.length := (c.length_of_stack stacked).symm
  have entries : ∀ i < y.length, ∀ k < y.length,
      entryOf term.curvature y.length i k = c.secondDerivative y i k * -multiplier := fun i hi k hk => by
    rw [curvature, c.entryOf_scale_hessianAt y _ hi hk]
  have symm : ∀ i < y.length, ∀ k < y.length,
      entryOf term.curvature y.length i k = entryOf term.curvature y.length k i := fun i hi k hk => by
    rw [entries i hi k hk, entries k hk i hi, c.secondDerivative_symm differences]
  refine ⟨layout, linear, constant, dim ▸ symm, fun count G writes => ?_⟩
  rw [dim] at writes ⊢
  refine ⟨fun i hi => ?_, fun i k above hk => ?_⟩
  · rw [entries i hi i hi, c.secondDerivative_diagonal differences,
      c.difference_eq_centralDifference writes hi]
  · have hi := above.trans hk
    have upper : entryOf term.curvature y.length i k = _ := entries i hi k hk
    rw [c.secondDerivative_of_lt differences y above, c.difference_eq_centralDifference writes hi,
      c.difference_eq_centralDifference writes hk] at upper
    exact ⟨upper, (symm i hi k hk).symm.trans upper⟩

/-- Products of neighbours: the last entry of a buffer is not written, and no potential has this gradient. -/
def neighbours : SmoothConstraint Float where
  layout := [(⟨1⟩, 2)]
  dualKey := ⟨7⟩
  value _ := 0.0
  gradient y _ := List.zipWith (· * ·) y (y.drop 1)
  differenceStep := 0.5

theorem neighbours_writes : neighbours.gradient.Writes 2 1 fun k y => y.getD k 0.0 * y.getD (k + 1) 0.0 := by
  intro y buffer length room k hk
  obtain ⟨a, b, rfl⟩ := List.length_eq_two.mp length
  obtain ⟨p, q, rfl⟩ := List.length_eq_two.mp room
  interval_cases k <;> rfl

theorem contribution_differences_neighbours :
    ∃ term, neighbours.contribution (.ofList [(⟨1⟩, [3.0, 2.0])]) (.ofList [(⟨7⟩, [2.0])]) = .ok (some term) ∧
      entryOf term.curvature 2 0 0 = -4.0 ∧ entryOf term.curvature 2 0 1 = -3.0 ∧
      entryOf term.curvature 2 1 0 = -3.0 ∧ entryOf term.curvature 2 1 1 = -0.0 := by
  have stacked : neighbours.stack (.ofList [(⟨1⟩, [3.0, 2.0])]) = .ok [3.0, 2.0] := rfl
  have entry : (Assignment.ofList [(⟨7⟩, [2.0])]).scalar? neighbours.dualKey = some (2.0 : Float) := rfl
  obtain ⟨answers, laws⟩ := neighbours.contribution_differences rfl stacked entry
  obtain ⟨term, ok⟩ := answers (show 2 * 2 < Size.vectorLimit by decide)
  obtain ⟨_, _, _, _, law⟩ := laws term ok
  obtain ⟨diagonal, pairs⟩ := law 1 _ neighbours_writes
  obtain ⟨upper, lower⟩ := pairs 0 1 Nat.zero_lt_one Nat.one_lt_two
  refine ⟨term, ok, (diagonal 0 Nat.zero_lt_two).trans ?_, upper.trans ?_, lower.trans ?_,
    (diagonal 1 Nat.one_lt_two).trans ?_⟩ <;> decide +kernel

/-! ## Exact quotients -/

/-- Over the rationals, quotients that make up a symmetric matrix are that matrix. -/
theorem hessianAt_eq_tabulate {c : SmoothConstraint ℚ} (differences : c.hessian? = none) {y : List ℚ} {n : ℕ}
    (length : y.length = n) {G : ℕ → List ℚ → ℚ} (writes : c.gradient.Writes n n G) {H : ℕ → ℕ → ℚ}
    (symmetric : ∀ i < n, ∀ k < n, H i k = H k i)
    (quotients : ∀ i < n, ∀ k < n, centralDifference G c.differenceStep y k i = H k i) :
    c.hessianAt y = tabulate n n H := by
  subst length
  have entries : ∀ i < y.length, ∀ k < y.length, c.difference y k i = H k i := fun i hi k hk => by
    rw [c.difference_eq_centralDifference writes hk, ← quotients i hi k hk]
    simp only [centralDifference, componentBelow, if_pos hk]
  have upper : ∀ i k, i < k → k < y.length → c.secondDerivative y i k = H i k := fun i k above hk => by
    have hi := above.trans hk
    rw [c.secondDerivative_of_lt differences y above, entries k hk i hi, entries i hi k hk, symmetric k hk i hi,
      half_rat]
    ring
  rw [← ByPosition.tabulate_getD c.length_hessianAt 0.0]
  apply tabulate_congr
  intro i hi k hk
  rw [c.getD_hessianAt y hi hk]
  obtain above | rfl | below := Nat.lt_trichotomy i k
  · exact upper i k above hk
  · rw [c.secondDerivative_diagonal differences, entries i hi i hi]
  · rw [c.secondDerivative_symm differences, upper k i below hi, symmetric k hk i hi]

end SmoothConstraint

end InequalityLayer
