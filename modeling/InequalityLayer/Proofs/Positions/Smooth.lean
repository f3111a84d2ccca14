import InequalityLayer.Proofs.Constraint.SecondDerivative
import InequalityLayer.Proofs.Constraint.Smooth
import InequalityLayer.Proofs.Positions.Dense
import Mathlib

/-!
Smooth constraints evaluated by position. The gradient is cut at running offsets (`cutFrom`), and the matrix of
central differences is filled entry by entry (`differenceColumn`): one coordinate of a copy of the point is moved
ahead, then behind, then put back, with one buffer for the gradients on either side. `curvature_eq` is that the
matrix is the one of `SmoothConstraint.curvature`, and `constraint_eq` that every answer is the same, faults about
sizes included.
-/
namespace InequalityLayer
set_option autoImplicit false

variable {α : Type}

namespace ByPosition

/-! ## Cutting a gradient -/

/-- The blocks of a layout, cut out of a stacked vector from position `offset` on. -/
def cutFrom (v : List α) : ℕ → Layout → Except Fault (List (Key × List α))
  | _, [] => .ok []
  | offset, (key, dim) :: L => do
    let block ← segment v offset (offset + dim)
    let others ← cutFrom v (offset + dim) L
    return (key, block) :: others

theorem cutFrom_eq (v : List α) (L : Layout) (offset : ℕ) (inside : offset + Layout.dim L ≤ v.length) :
    cutFrom v offset L = .ok (L.split (v.drop offset)) := by
  induction L generalizing offset with
  | nil => rfl
  | cons entry L ih =>
    obtain ⟨key, dim⟩ := entry
    have stacked : Layout.dim ((key, dim) :: L) = dim + Layout.dim L := rfl
    unfold cutFrom Layout.split
    rw [segment_of_le (by omega) (by omega), ih _ (by omega), Nat.add_sub_cancel_left, List.drop_drop]
    rfl

/-! ## Moving one coordinate -/

section Moved

variable {v : List α} {i : ℕ} (inside : i < v.length)
include inside

theorem replaceAt_move (move : α → α) (x : α) :
    replaceAt v i (move (v.getD i x)) = .ok (v.modify i move) := by
  rw [replaceAt_of_lt inside]
  congr 1
  apply List.ext_getElem (by simp)
  intro j _ _
  by_cases here : i = j
  · subst here
    simp [inside]
  · simp [here]

/-- A coordinate that has been moved is moved again from where it was. -/
theorem replaceAt_modify (first second : α → α) (x : α) :
    replaceAt (v.modify i first) i (second (v.getD i x)) = .ok (v.modify i second) := by
  rw [replaceAt_of_lt (by rwa [List.length_modify]), ← replaceAt_move inside second x, replaceAt_of_lt inside]
  congr 1
  apply List.ext_getElem (by simp)
  intro j _ _
  by_cases here : i = j <;> simp [here]

theorem replaceAt_modify_back (first : α → α) (x : α) :
    replaceAt (v.modify i first) i (v.getD i x) = .ok v := by
  have back := replaceAt_modify inside first id x
  rwa [List.modify_id] at back

end Moved

/-! ## Filling the matrix of differences -/

/-- What the loop over the columns changes: the matrix, the moved point, and the gradients on either side. -/
structure Scratch (α : Type) where
  matrix : List α
  point : List α
  ahead : List α
  behind : List α

section Differences

variable [Scalar α] (c : SmoothConstraint α) (y : List α)

/-- Row `k` of column `i`. -/
def writeEntry (n i : ℕ) (ahead behind matrix : List α) (k : ℕ) : Except Fault (List α) := do
  let a ← entryAt ahead k
  let b ← entryAt behind k
  replaceAt matrix (k * n + i) ((a - b) / (2.0 * c.differenceStep))

/-- Column `i`: the coordinate is moved ahead, moved behind and put back. -/
def differenceColumn (n : ℕ) (s : Scratch α) (i : ℕ) : Except Fault (Scratch α) := do
  let coordinate ← entryAt y i
  let point ← replaceAt s.point i (coordinate + c.differenceStep)
  let ahead := c.gradient.fill point s.ahead
  let point ← replaceAt point i (coordinate - c.differenceStep)
  let behind := c.gradient.fill point s.behind
  let point ← replaceAt point i coordinate
  let matrix ← (List.range n).foldlM (writeEntry c n i ahead behind) s.matrix
  return { matrix, point, ahead, behind }

/-- The matrix of second derivatives. The size of the matrix has to be a word, and a vector has to have it. -/
def curvature : Except Fault (List α) := do
  let n := y.length
  Size.checkProduct (n * n)
  Size.checkVector (n * n)
  match c.hessian? with
  | some hessian => return hessian.fill y (SmoothConstraint.zeros (n * n))
  | none => do
    let start : Scratch α :=
      { matrix := SmoothConstraint.zeros (n * n), point := y
        ahead := SmoothConstraint.zeros n, behind := SmoothConstraint.zeros n }
    let filled ← (List.range n).foldlM (differenceColumn c y n) start
    symmetrize filled.matrix n

/-- The matrix in which the columns before column `i` are filled, and column `i` in its first `k` rows. -/
def filledTo (i k : ℕ) : List α :=
  tabulate y.length y.length fun row column =>
    if column < i ∨ column = i ∧ row < k then c.difference y row column else 0.0

/-- What is in the scratch space after the columns before column `i`. -/
def scratchAt (i : ℕ) : Scratch α where
  matrix := filledTo c y i 0
  point := y
  ahead := c.gradientsTo y (· + c.differenceStep) i
  behind := c.gradientsTo y (· - c.differenceStep) i

variable {c y} {i k : ℕ}

theorem writeEntry_filledTo (hi : i < y.length) (hk : k < y.length) :
    writeEntry c y.length i (c.gradientsTo y (· + c.differenceStep) (i + 1))
        (c.gradientsTo y (· - c.differenceStep) (i + 1)) (filledTo c y i k) k =
      .ok (filledTo c y i (k + 1)) := by
  unfold writeEntry filledTo
  rw [entryAt_of_lt (by rwa [c.length_gradientsTo]) 0.0, entryAt_of_lt (by rwa [c.length_gradientsTo]) 0.0]
  simp only [bind, Except.bind]
  rw [replaceAt_tabulate _ hk hi]
  congr 1
  apply tabulate_congr
  intro row _ column _
  by_cases here : k = row ∧ i = column
  · obtain ⟨rfl, rfl⟩ := here
    simp [SmoothConstraint.difference]
  · have same : (column < i ∨ column = i ∧ row < k) ↔ (column < i ∨ column = i ∧ row < k + 1) := by omega
    simp only [if_neg here, same]

theorem filledTo_zero : filledTo c y 0 0 = SmoothConstraint.zeros (y.length * y.length) := by
  unfold filledTo SmoothConstraint.zeros
  rw [List.eq_replicate_iff, length_tabulate]
  refine ⟨rfl, fun a mem => ?_⟩
  simp only [Nat.not_lt_zero, and_false, or_false, if_false, tabulate, List.mem_flatMap, List.mem_map] at mem
  obtain ⟨_, _, _, _, rfl⟩ := mem
  rfl

/-- With the last row of column `i` filled, the next entry is the first of column `i + 1`. -/
theorem filledTo_next : filledTo c y i y.length = filledTo c y (i + 1) 0 := by
  apply tabulate_congr
  intro row hr column _
  have same : (column < i ∨ column = i ∧ row < y.length) ↔ (column < i + 1 ∨ column = i + 1 ∧ row < 0) := by omega
  simp only [same]

theorem differenceColumn_scratchAt (hi : i < y.length) :
    differenceColumn c y y.length (scratchAt c y i) i = .ok (scratchAt c y (i + 1)) := by
  have column := foldlM_range (filledTo c y i) y.length fun k hk => writeEntry_filledTo (c := c) hi hk
  rw [filledTo_next] at column
  unfold differenceColumn scratchAt
  simp only [entryAt_of_lt hi 0.0, bind, Except.bind]
  simp only [replaceAt_move hi (· + c.differenceStep) 0.0, replaceAt_modify hi _ (· - c.differenceStep) 0.0,
    replaceAt_modify_back hi]
  simp only [SmoothConstraint.gradientsTo] at column ⊢
  rw [column]
  rfl

/-- The loop over all columns, then the average with the transpose. -/
theorem differences_eq :
    ((List.range y.length).foldlM (differenceColumn c y y.length)
        { matrix := SmoothConstraint.zeros (y.length * y.length), point := y
          ahead := SmoothConstraint.zeros y.length, behind := SmoothConstraint.zeros y.length } >>=
        fun filled => symmetrize filled.matrix y.length) =
      .ok (c.differenceHessian y) := by
  have finish : filledTo c y y.length 0 = tabulate y.length y.length fun k i =>
      ((c.differenceColumns y (List.range y.length) (SmoothConstraint.zeros y.length)
        (SmoothConstraint.zeros y.length)).getD i []).getD k 0.0 := by
    apply tabulate_congr
    intro k hk i hi
    rw [c.getD_differenceColumns y hk hi, if_pos (.inl hi)]
  have run := foldlM_range (scratchAt c y) y.length fun i hi => differenceColumn_scratchAt hi
  simp only [scratchAt, filledTo_zero, finish, SmoothConstraint.gradientsTo] at run
  simp only [run, bind, Except.bind]
  exact symmetrize_eq (length_tabulate _ _ _)

theorem curvature_eq : curvature c y = c.curvature y := by
  unfold curvature SmoothConstraint.curvature SmoothConstraint.hessianAt
  simp only [differences_eq]
  cases c.hessian? <;> rfl

end Differences

/-! ## Answers -/

variable [Scalar α] (c : SmoothConstraint α)

/-- The row `∇g(x)ᵀ δ ≤ -g(x)`. -/
def linearize (x : Assignment α) : Outcome α (LinearFactor α) := do
  let stacked ← c.stack x
  let blocks ← cutFrom (c.gradientAt stacked) 0 c.layout
  let rows ← JacobianFactor.ofTerms blocks [-c.value stacked]
  return .jacobian rows

/-- The form `-½ λ δᵀ∇²g(x)δ`, if there is a multiplier `λ`. -/
def contribution (x duals : Assignment α) : Outcome α (Option (HessianFactor α)) :=
  match duals.scalar? c.dualKey with
  | none => .ok none
  | some multiplier => do
    let stacked ← c.stack x
    let matrix ← curvature c stacked
    let term ← HessianFactor.ofCurvature c.layout (scale matrix (-multiplier))
    return some term

/-- The constraint with its answers by position. -/
def constraint : Constraint α where
  keys := c.layout.keys
  dualKey := c.dualKey
  violation := c.violation
  linearize := linearize c
  contribution := contribution c

theorem linearize_eq (x : Assignment α) : linearize c x = c.linearize x := by
  unfold linearize SmoothConstraint.linearize
  cases stacked : c.stack x with
  | error e => rfl
  | ok y =>
    have length : (c.gradientAt y).length = c.layout.dim :=
      (length_overwrite _ _).trans ((SmoothConstraint.length_zeros _).trans (c.length_of_stack stacked))
    have blocks := cutFrom_eq (c.gradientAt y) c.layout 0 (by omega)
    rw [List.drop_zero] at blocks
    simp only [lift_fault, Except.mapError, bind, Except.bind, blocks]

theorem contribution_eq (x duals : Assignment α) : contribution c x duals = c.contribution x duals := by
  unfold contribution SmoothConstraint.contribution
  cases duals.scalar? c.dualKey with
  | none => rfl
  | some multiplier => simp only [curvature_eq]

theorem constraint_eq : constraint c = c.toConstraint := by
  have first : linearize c = c.linearize := funext (linearize_eq c)
  have second : contribution c = c.contribution := funext fun x => funext (contribution_eq c x)
  unfold constraint SmoothConstraint.toConstraint
  rw [first, second]

end ByPosition

end InequalityLayer
