import InequalityLayer.Linear.Hessian
import InequalityLayer.Linear.Inequality
import InequalityLayer.Proofs.Constraint.Passes
import InequalityLayer.Proofs.Linear.Feasibility
import InequalityLayer.Proofs.Positions.Dense
import InequalityLayer.Proofs.Stacking
import Mathlib

/-!
Linear models evaluated by position. The shape of a factor is part of its type: at least one row, blocks of whole
rows, a square matrix as large as the stacked step. So the slices and entries that an evaluation takes are there
whatever the factor and the step are, and an evaluation by position ends as the one without positions does:
`multiply_eq`, `product_eq`, `error_eq`, `errorVector_eq`, `isFeasible_eq`, `formError_eq`, `correctionError_eq`.
An error about the step is the only failure that is left.
-/
namespace InequalityLayer.ByPosition
set_option autoImplicit false

/-! ## Reported errors among failures -/

theorem mapError_bind {ε ε' β γ : Type} (r : Except ε β) (next : β → Except ε γ) (g : ε → ε') :
    (r >>= next).mapError g = r.mapError g >>= fun b => (next b).mapError g := by
  cases r <;> rfl

theorem mapM_mapError {ε ε' β γ : Type} (f : β → Except ε γ) (g : ε → ε') (l : List β) :
    (l.mapM fun b => (f b).mapError g) = (l.mapM f).mapError g := by
  induction l with
  | nil => rfl
  | cons b l ih => simp only [List.mapM_cons, ih, mapError_bind]; rfl

variable {α : Type}

/-! ## Shapes -/

theorem entryAt_rhs (c : LinearInequality α) : entryAt c.jacobian.rhs 0 = .ok c.bound := by
  have first : 0 < c.jacobian.rhs.length := c.jacobian.rows_pos
  rw [entryAt, dif_pos first, LinearInequality.bound, List.head_eq_getElem]

variable [Scalar α]

/-! ## Coefficient rows -/

section Rows

/-- The products of the rows of a block with a vector, added to the rows of `out`. -/
def addRows (width : ℕ) (block d out : List α) : Except Fault (List α) :=
  out.zipIdx.mapM fun entry => do
    let entries ← segment block (entry.2 * width) ((entry.2 + 1) * width)
    return entry.1 + dot entries d

variable (J : JacobianFactor α) (δ : Assignment α)

/-- The product of one term with the step added to `out`. -/
def addTerm (out : List α) (term : Key × List α) : Outcome α (List α) :=
  match δ.get? term.1 with
  | none => .ok out
  | some d =>
    if d.length = J.width term.2 then addRows (J.width term.2) term.2 d out
    else .error (.error (.dimensionMismatch term.1 (J.width term.2) d.length))

/-- The product `A·δ`. -/
def multiply : Outcome α (List α) := J.terms.foldlM (addTerm J δ) (List.replicate J.rows 0.0)

/-- The vector `A·δ - b`. -/
def errorVector : Outcome α (List α) := do
  let product ← multiply J δ
  return List.zipWith (· - ·) product J.rhs

theorem addRows_eq {rows width : ℕ} {block : List α} (size : block.length = rows * width) (d : List α) (f : ℕ → α) :
    addRows width block d ((List.range rows).map f) =
      .ok ((List.range rows).map fun i => f i + dot (row block width i) d) := by
  unfold addRows
  rw [mapM_eq_ok_iff, List.forall₂_iff_get]
  refine ⟨by simp, fun i inside _ => ?_⟩
  have below : i < rows := by simpa using inside
  simp [segment_row size below, bind, Except.bind, pure, Except.pure]

theorem addTerm_eq (before : List (List α × List α)) {term : Key × List α} (mem : term ∈ J.terms) :
    addTerm J δ ((List.range J.rows).map (JacobianFactor.rowProduct before)) term =
      ((fun met => (List.range J.rows).map (JacobianFactor.rowProduct (before ++ met.toList))) <$>
        J.meet δ term).mapError .error := by
  unfold addTerm JacobianFactor.meet
  cases δ.get? term.1 with
  | none => simp [Except.mapError]
  | some d =>
    by_cases length : d.length = J.width term.2
    · simp only [if_pos length]
      rw [addRows_eq (J.length_block mem)]
      simp [lift_fault, Except.mapError, JacobianFactor.rowProduct, length]
    · simp [length, Except.mapError]

/-- After some of the terms, the rows hold the products of the blocks met so far. -/
theorem addTerms_eq (before : List (List α × List α)) {terms : List (Key × List α)}
    (known : ∀ term ∈ terms, term ∈ J.terms) :
    terms.foldlM (addTerm J δ) ((List.range J.rows).map (JacobianFactor.rowProduct before)) =
      ((fun answers => (List.range J.rows).map (JacobianFactor.rowProduct (before ++ answers.filterMap id))) <$>
        terms.mapM (J.meet δ)).mapError .error := by
  induction terms generalizing before with
  | nil => simp [pure, Except.pure, Except.mapError]
  | cons term rest ih =>
    obtain ⟨first, others⟩ := List.forall_mem_cons.mp known
    rw [List.foldlM_cons, addTerm_eq J δ before first, List.mapM_cons]
    cases J.meet δ term with
    | error e => rfl
    | ok met =>
      refine (ih (before ++ met.toList) others).trans ?_
      cases rest.mapM (J.meet δ) with
      | error e => rfl
      | ok answers => cases met <;> simp [bind, Except.bind, pure, Except.pure, Except.mapError]

theorem multiply_eq : multiply J δ = (J.multiply δ).mapError .error := by
  have start : (List.range J.rows).map (JacobianFactor.rowProduct []) = List.replicate J.rows (0.0 : α) :=
    (List.map_const' ..).trans (by rw [List.length_range]; rfl)
  have run := addTerms_eq J δ [] fun term mem => mem
  rw [start] at run
  unfold multiply JacobianFactor.multiply JacobianFactor.overlap
  rw [run]
  cases J.terms.mapM (J.meet δ) <;> rfl

theorem errorVector_eq : errorVector J δ = (J.errorVector δ).mapError .error := by
  unfold errorVector JacobianFactor.errorVector
  rw [multiply_eq]
  cases J.multiply δ <;> rfl

end Rows

/-! ## Inequalities -/

section Inequalities

variable (c : LinearInequality α) (δ : Assignment α)

/-- The product `a·δ` of the first row. -/
def product : Outcome α α := do
  let out ← multiply c.jacobian δ
  entryAt out 0

/-- The number `a·δ - b`. -/
def error : Outcome α α := do
  let product ← product c δ
  let bound ← entryAt c.jacobian.rhs 0
  return product - bound

def allWithin (tol : α) : List (LinearInequality α) → Outcome α Bool
  | [] => .ok true
  | c :: rest => do
    let violation ← error c δ
    if tol < violation then return false
    allWithin tol rest

theorem product_eq : product c δ = (c.product δ).mapError .error := by
  unfold product
  rw [multiply_eq]
  unfold JacobianFactor.multiply LinearInequality.product
  cases c.jacobian.overlap δ with
  | error e => rfl
  | ok pairs =>
    have first : entryAt ((List.range c.jacobian.rows).map (JacobianFactor.rowProduct pairs)) 0 =
        .ok (JacobianFactor.rowProduct pairs 0) := by
      rw [entryAt, dif_pos (by simpa using c.jacobian.rows_pos)]
      simp
    simp only [lift_fault, Except.map_ok, Except.mapError, bind, Except.bind, first]

theorem error_eq : error c δ = (c.error δ).mapError .error := by
  unfold error LinearInequality.error
  rw [product_eq, entryAt_rhs]
  cases c.product δ <;> rfl

theorem allWithin_eq (tol : α) (inequalities : List (LinearInequality α)) :
    allWithin δ tol inequalities = (LinearizedSet.allWithin δ tol inequalities).mapError .error := by
  induction inequalities with
  | nil => rfl
  | cons c rest ih =>
    unfold allWithin LinearizedSet.allWithin
    rw [error_eq, ih, mapError_bind]
    congr 1
    funext violation
    by_cases above : tol < violation <;> simp [above]; rfl

/-- Whether no inequality is violated by more than `tol`. -/
def isFeasible (s : LinearizedSet α) (tol : α) : Outcome α Bool := allWithin δ tol s.inequalities

theorem isFeasible_eq (s : LinearizedSet α) (tol : α) :
    isFeasible δ s tol = (s.isFeasible δ tol).mapError .error :=
  allWithin_eq δ tol s.inequalities

end Inequalities

/-! ## Quadratic forms -/

/-- The value of a form at a step. -/
def formError (H : HessianFactor α) (δ : Assignment α) : Outcome α α := do
  let x ← H.layout.stackStep δ
  let form ← quadraticForm H.curvature x H.linear.length
  return 0.5 * form - dot H.linear x + H.constant

/-- The sum of the values of all terms. -/
def correctionError (c : LagrangianCorrection α) (δ : Assignment α) : Outcome α α := do
  let values ← c.terms.mapM fun term => formError term δ
  return sum values

theorem formError_eq (H : HessianFactor α) (δ : Assignment α) :
    formError H δ = (H.error δ).mapError .error := by
  unfold formError HessianFactor.error
  cases step : H.layout.stackStep δ with
  | error e => rfl
  | ok x =>
    have length : x.length = H.layout.dim := Layout.length_stackStep step
    have square : H.curvature.length = x.length * x.length := length ▸ H.length_curvature
    have form := quadraticForm_eq square
    rw [← H.length_linear.trans length.symm] at form
    simp only [lift_reported, lift_fault, Except.mapError, bind, Except.bind, form]
    rfl

theorem correctionError_eq (c : LagrangianCorrection α) (δ : Assignment α) :
    correctionError c δ = (c.error δ).mapError .error := by
  unfold correctionError LagrangianCorrection.error
  simp only [formError_eq, mapM_mapError]
  cases c.terms.mapM fun term => term.error δ <;> rfl

end InequalityLayer.ByPosition
