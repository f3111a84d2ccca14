import InequalityLayer.Linear.Inequality
import InequalityLayer.Proofs.Binary64.Zero
import InequalityLayer.Proofs.Linear.Steps
import Mathlib

/-!
Variables that a step leaves out. To leave a variable out, or to move it by zeros, is the same for a model over it, and
variables that are not in the model do not matter at all (`Assignment.SameMoves`). Quadratic forms fill in the zeros
themselves, so they cannot tell such steps apart (`Layout.stackStep_alike`). Coefficient rows leave a term out instead,
where they would add a zero of either sign: rounded to binary64 that is no different, because the number it is added to
is never the negative zero (`JacobianFactor.addTerm_ne_negZero`, `JacobianFactor.rowProducts_alike`). Main statement:
`same_answers`.
-/
namespace InequalityLayer
set_option autoImplicit false

/-! ## Steps that move alike -/

namespace Assignment

variable {α : Type} [Scalar α]

/-- Two steps have the same entry for a variable of a layout, or one leaves it out and the other moves it by zeros. -/
inductive SameMove (δ ε : Assignment α) : Key × ℕ → Prop
  | same {entry : Key × ℕ} : δ.get? entry.1 = ε.get? entry.1 → SameMove δ ε entry
  | leftOut {entry : Key × ℕ} : δ.get? entry.1 = none → ε.get? entry.1 = some (List.replicate entry.2 0.0) →
      SameMove δ ε entry
  | filledIn {entry : Key × ℕ} : δ.get? entry.1 = some (List.replicate entry.2 0.0) → ε.get? entry.1 = none →
      SameMove δ ε entry

def SameMoves (L : Layout) (δ ε : Assignment α) : Prop := ∀ entry ∈ L, SameMove δ ε entry

variable {δ ε : Assignment α} {entry : Key × ℕ}

theorem SameMove.stepPart_eq (alike : SameMove δ ε entry) : Layout.stepPart δ entry = Layout.stepPart ε entry := by
  unfold Layout.stepPart
  cases alike with
  | same equal => rw [equal]
  | leftOut absent zeros => simp [absent, zeros, Layout.sized]
  | filledIn zeros absent => simp [absent, zeros, Layout.sized]

end Assignment

open Assignment

/-! ## Quadratic forms -/

section Forms

variable {α : Type} [Scalar α] {δ ε : Assignment α}

theorem Layout.stackStep_alike {L : Layout} (alike : SameMoves L δ ε) : L.stackStep δ = L.stackStep ε := by
  unfold stackStep
  rw [mapM_congr fun entry mem => (alike entry mem).stepPart_eq]

theorem HessianFactor.error_alike {H : HessianFactor α} (alike : SameMoves H.layout δ ε) : H.error δ = H.error ε := by
  unfold error
  rw [Layout.stackStep_alike alike]

/-- The layouts of all terms. -/
def LagrangianCorrection.layout (c : LagrangianCorrection α) : Layout := c.terms.flatMap HessianFactor.layout

theorem LagrangianCorrection.error_alike {c : LagrangianCorrection α} (alike : SameMoves c.layout δ ε) :
    c.error δ = c.error ε := by
  unfold error
  rw [mapM_congr fun term mem => HessianFactor.error_alike fun entry part =>
    alike entry (List.mem_flatMap_of_mem mem part)]

end Forms

/-! ## Coefficient rows -/

namespace JacobianFactor

/-- All blocks consist of finite numbers. -/
def FiniteBlocks (J : JacobianFactor Float) : Prop := ∀ term ∈ J.terms, ∀ v ∈ term.2, v.isFinite = true

instance (J : JacobianFactor Float) : Decidable J.FiniteBlocks :=
  inferInstanceAs (Decidable (∀ term ∈ J.terms, ∀ v ∈ term.2, v.isFinite = true))

/-- What a term does to row `i` of a product. -/
def addTerm (δ : Assignment Float) (i : ℕ) (s : Float) (term : Key × List Float) : Float :=
  match δ.get? term.1 with
  | some d => s + dot (row term.2 d.length i) d
  | none => s

theorem rowProduct_eq_foldl (terms : List (Key × List Float)) (δ : Assignment Float) (i : ℕ) :
    rowProduct (terms.filterMap fun term => (δ.get? term.1).map fun d => (term.2, d)) i =
      terms.foldl (addTerm δ i) 0.0 := by
  unfold rowProduct
  rw [List.foldl_filterMap]
  congr 1
  funext s term
  unfold addTerm
  cases δ.get? term.1 <;> rfl

variable {J : JacobianFactor Float} {δ ε : Assignment Float} {term : Key × List Float}

theorem addTerm_ne_negZero {s : Float} (start : s ≠ -0.0) (i : ℕ) : addTerm δ i s term ≠ -0.0 := by
  unfold addTerm
  cases δ.get? term.1 with
  | none => exact start
  | some d => exact fun sum => start (Binary64.add_eq_negZero sum).1

/-- A row of zeros makes no difference to a number that is not the negative zero. -/
theorem addTerm_zeros {s : Float} (start : s ≠ -0.0) (finite : ∀ v ∈ term.2, v.isFinite = true) {width : ℕ}
    (zeros : δ.get? term.1 = some (List.replicate width 0.0)) (i : ℕ) : addTerm δ i s term = s := by
  have part : ∀ v ∈ row term.2 (List.replicate width (0.0 : Float)).length i, v.isFinite = true := fun v mem =>
    finite v (List.mem_of_mem_drop (List.mem_of_mem_take mem))
  have still : ∀ v ∈ List.replicate width (0.0 : Float), Binary64.IsZero v := fun v mem =>
    .inl (List.eq_of_mem_replicate mem)
  unfold addTerm
  rw [zeros]
  exact Binary64.add_isZero (Binary64.isZero_dot part still) start

theorem addTerm_alike {s : Float} (start : s ≠ -0.0) (finite : ∀ v ∈ term.2, v.isFinite = true)
    (alike : SameMove δ ε (J.entry term)) (i : ℕ) : addTerm δ i s term = addTerm ε i s term := by
  cases alike with
  | same equal =>
    unfold addTerm
    rw [show δ.get? term.1 = ε.get? term.1 from equal]
  | leftOut absent zeros =>
    rw [addTerm_zeros start finite zeros, addTerm, show δ.get? term.1 = none from absent]
  | filledIn zeros absent =>
    rw [addTerm_zeros start finite zeros, addTerm, show ε.get? term.1 = none from absent]

theorem foldl_alike {terms : List (Key × List Float)} (finite : ∀ term ∈ terms, ∀ v ∈ term.2, v.isFinite = true)
    (alike : ∀ term ∈ terms, SameMove δ ε (J.entry term)) (i : ℕ) {s : Float} (start : s ≠ -0.0) :
    terms.foldl (addTerm δ i) s = terms.foldl (addTerm ε i) s := by
  induction terms generalizing s with
  | nil => rfl
  | cons term terms ih =>
    obtain ⟨finite_here, finite_later⟩ := List.forall_mem_cons.mp finite
    obtain ⟨alike_here, alike_later⟩ := List.forall_mem_cons.mp alike
    rw [List.foldl_cons, List.foldl_cons, addTerm_alike start finite_here alike_here]
    exact ih finite_later alike_later (addTerm_ne_negZero start i)

theorem overlap_eq_error_alike (alike : SameMoves J.layout δ ε) (e : ConstraintError Float) :
    J.overlap δ = .error e ↔ J.overlap ε = .error e := by
  simp only [overlap_eq_error_iff, firstMisfit_iff, ← Layout.stackStep_eq_error_iff, Layout.stackStep_alike alike]

theorem fits_alike (alike : SameMoves J.layout δ ε) :
    (∀ term ∈ J.terms, J.Fits δ term) ↔ ∀ term ∈ J.terms, J.Fits ε term := by
  simp only [← forall_suits_iff, ← Layout.exists_stackStep_iff, Layout.stackStep_alike alike]

/-- The rows of the product, or the reason why there are none. -/
theorem rowProducts_alike (finite : J.FiniteBlocks) (alike : SameMoves J.layout δ ε) :
    rowProduct <$> J.overlap δ = rowProduct <$> J.overlap ε := by
  by_cases fits : ∀ term ∈ J.terms, J.Fits δ term
  · rw [overlap_of_fits fits, overlap_of_fits ((fits_alike alike).mp fits), Except.map_ok, Except.map_ok]
    congr 1
    funext i
    rw [rowProduct_eq_foldl, rowProduct_eq_foldl]
    exact foldl_alike finite (List.forall_mem_map.mp alike) i (by decide)
  · have rejected := mt exists_overlap_iff.mp fits
    cases failed : J.overlap δ with
    | ok pairs => exact absurd ⟨pairs, failed⟩ rejected
    | error e => rw [(overlap_eq_error_alike alike e).mp failed]

theorem multiply_alike (finite : J.FiniteBlocks) (alike : SameMoves J.layout δ ε) :
    J.multiply δ = J.multiply ε := by
  have rows (pairs : Except (ConstraintError Float) (List (List Float × List Float))) :
      (fun met => (List.range J.rows).map (rowProduct met)) <$> pairs =
        (fun product => (List.range J.rows).map product) <$> rowProduct <$> pairs := by
    cases pairs <;> rfl
  unfold multiply
  rw [rows, rows, rowProducts_alike finite alike]

end JacobianFactor

namespace LinearInequality

variable {q : LinearInequality Float} {δ ε : Assignment Float}

theorem product_alike (finite : q.jacobian.FiniteBlocks) (alike : SameMoves q.jacobian.layout δ ε) :
    q.product δ = q.product ε := by
  have first (pairs : Except (ConstraintError Float) (List (List Float × List Float))) :
      (fun met => JacobianFactor.rowProduct met 0) <$> pairs =
        (fun product => product 0) <$> JacobianFactor.rowProduct <$> pairs := by
    cases pairs <;> rfl
  unfold product
  rw [first, first, JacobianFactor.rowProducts_alike finite alike]

theorem error_alike (finite : q.jacobian.FiniteBlocks) (alike : SameMoves q.jacobian.layout δ ε) :
    q.error δ = q.error ε := by
  unfold error
  rw [product_alike finite alike]

end LinearInequality

/-! ## Lists of inequalities -/

namespace LinearizedSet

variable {δ ε : Assignment Float} {tol : Float}

/-- The layouts of all rows. -/
def layout (m : LinearizedSet Float) : Layout := m.inequalities.flatMap fun q => q.jacobian.layout

theorem allWithin_congr {cs : List (LinearInequality Float)} (same : ∀ c ∈ cs, c.error δ = c.error ε) :
    allWithin δ tol cs = allWithin ε tol cs := by
  induction cs with
  | nil => rfl
  | cons c cs ih =>
    obtain ⟨here, later⟩ := List.forall_mem_cons.mp same
    rw [allWithin, allWithin, here, ih later]

theorem isFeasible_alike {m : LinearizedSet Float} (finite : ∀ q ∈ m.inequalities, q.jacobian.FiniteBlocks)
    (alike : SameMoves m.layout δ ε) : m.isFeasible δ tol = m.isFeasible ε tol :=
  allWithin_congr fun q mem => LinearInequality.error_alike (finite q mem) fun entry part =>
    alike entry (List.mem_flatMap_of_mem mem part)

end LinearizedSet

/-! ## All answers -/

/-- Two steps that move the variables of a model alike give the same answers, errors included and in every bit. For
quadratic forms and their sums this is so whatever the coefficients are and in any arithmetic, for coefficient rows in
binary64 if those in the blocks are finite. -/
theorem same_answers :
    (∀ (α : Type) [Scalar α] (δ ε : Assignment α),
      (∀ H : HessianFactor α, SameMoves H.layout δ ε → H.error δ = H.error ε) ∧
      ∀ c : LagrangianCorrection α, SameMoves c.layout δ ε → c.error δ = c.error ε) ∧
    ∀ δ ε : Assignment Float,
      (∀ J : JacobianFactor Float, J.FiniteBlocks → SameMoves J.layout δ ε →
        J.multiply δ = J.multiply ε ∧ J.errorVector δ = J.errorVector ε) ∧
      (∀ q : LinearInequality Float, q.jacobian.FiniteBlocks → SameMoves q.jacobian.layout δ ε →
        q.product δ = q.product ε ∧ q.error δ = q.error ε) ∧
      ∀ (m : LinearizedSet Float) (tol : Float), (∀ q ∈ m.inequalities, q.jacobian.FiniteBlocks) →
        SameMoves m.layout δ ε → m.isFeasible δ tol = m.isFeasible ε tol := by
  refine ⟨fun α _ δ ε => ⟨fun H alike => HessianFactor.error_alike alike,
    fun c alike => LagrangianCorrection.error_alike alike⟩, fun δ ε => ⟨fun J finite alike => ?_,
    fun q finite alike => ⟨LinearInequality.product_alike finite alike, LinearInequality.error_alike finite alike⟩,
    fun m tol finite alike => LinearizedSet.isFeasible_alike finite alike⟩⟩
  have products := JacobianFactor.multiply_alike finite alike
  exact ⟨products, by rw [JacobianFactor.errorVector, JacobianFactor.errorVector, products]⟩

/-- One variable twice, with coefficients of both signs, and another one between. -/
def alternating : JacobianFactor Float where
  terms := [(⟨1⟩, [-1.0, 2.0]), (⟨2⟩, [3.0]), (⟨1⟩, [4.0, -5.0])]
  rhs := [0.5]
  rhs_ne_nil := List.cons_ne_nil _ _
  rows_dvd _ _ := Nat.one_dvd _

/-- Not all coefficients are finite. -/
def unbounded : HessianFactor Float where
  layout := [(⟨1⟩, 1), (⟨2⟩, 1)]
  curvature := [Float.nan, 1.0, Float.inf, 2.0]
  linear := [-1.0, Float.inf]
  constant := 0.0
  length_curvature := rfl
  length_linear := rfl

/-- Variable 1 is left out, and one that neither model has is moved by no number. -/
def sparse : Assignment Float := .ofList [(⟨2⟩, [1.0]), (⟨9⟩, [Float.nan])]

theorem same_answers_sparse :
    alternating.multiply sparse = alternating.multiply (.ofList [(⟨1⟩, [0.0, 0.0]), (⟨2⟩, [1.0])]) ∧
    LinearizedSet.isFeasible ⟨[{ jacobian := alternating, dualKey := ⟨7⟩ }]⟩ sparse 2.5 =
      LinearizedSet.isFeasible ⟨[{ jacobian := alternating, dualKey := ⟨7⟩ }]⟩
        (.ofList [(⟨1⟩, [0.0, 0.0]), (⟨2⟩, [1.0])]) 2.5 ∧
    unbounded.error sparse = unbounded.error (.ofList [(⟨1⟩, [0.0]), (⟨2⟩, [1.0])]) := by
  obtain ⟨forms, rows⟩ := same_answers
  obtain ⟨products, _, sets⟩ := rows sparse (.ofList [(⟨1⟩, [0.0, 0.0]), (⟨2⟩, [1.0])])
  have finite : alternating.FiniteBlocks := by decide
  have alike : SameMoves alternating.layout sparse (.ofList [(⟨1⟩, [0.0, 0.0]), (⟨2⟩, [1.0])]) := by
    have layout : alternating.layout = [(⟨1⟩, 2), (⟨2⟩, 1), (⟨1⟩, 2)] := rfl
    rw [layout]
    simp only [SameMoves, List.forall_mem_cons]
    exact ⟨.leftOut rfl rfl, .same rfl, .leftOut rfl rfl, nofun⟩
  have alone : LinearizedSet.layout ⟨[{ jacobian := alternating, dualKey := ⟨7⟩ }]⟩ = alternating.layout := rfl
  have form : SameMoves unbounded.layout sparse (.ofList [(⟨1⟩, [0.0]), (⟨2⟩, [1.0])]) := by
    simp only [unbounded, SameMoves, List.forall_mem_cons]
    exact ⟨.leftOut rfl rfl, .same rfl, nofun⟩
  exact ⟨(products alternating finite alike).1, sets _ 2.5 (List.forall_mem_singleton.mpr finite) (alone ▸ alike),
    (forms Float _ _).1 unbounded form⟩

end InequalityLayer
