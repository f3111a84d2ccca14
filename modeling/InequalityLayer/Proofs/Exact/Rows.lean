import InequalityLayer.Proofs.Exact.LocalModel
import InequalityLayer.Proofs.Linear.Evaluation
import Mathlib

/-!
Products with several rows, over the rationals. Row `i` of a product is the sum, over the terms whose variable the
step moves, of row `i` of the block times the vector (`multiply_of_fits`). So a product is additive and homogeneous
in the step, where steps are added and scaled variable by variable: `multiply_plus`, `multiply_times`. Main
statement: `rows_evaluated`, what building and evaluating coefficient rows gives for every shape.
-/
namespace InequalityLayer
set_option autoImplicit false
open Finset

/-! ## Sums and multiples of steps -/

namespace Assignment

variable {α : Type}

/-- The sum of two steps. A variable that one of them leaves out moves as in the other. -/
def plus [Add α] (δ ε : Assignment α) : Assignment α := ⟨ε.map ∪ (δ.shift ε).map⟩

/-- The step with all its coordinates multiplied by one number. -/
def times [Scalar α] (δ : Assignment α) (factor : α) : Assignment α := ⟨δ.map.map fun _ v => scale v factor⟩

theorem get?_plus [Add α] (δ ε : Assignment α) (key : Key) :
    (δ.plus ε).get? key = Option.merge (List.zipWith (· + ·)) (δ.get? key) (ε.get? key) := by
  have union : (δ.plus ε).get? key = ((δ.shift ε).get? key).or (ε.get? key) := Std.TreeMap.getElem?_union
  rw [union, get?_shift]
  cases δ.get? key <;> cases ε.get? key <;> rfl

theorem get?_times [Scalar α] (δ : Assignment α) (factor : α) (key : Key) :
    (δ.times factor).get? key = (δ.get? key).map (scale · factor) := Std.TreeMap.getElem?_map

end Assignment

/-! ## Rows -/

namespace JacobianFactor

/-- Row `i` of a block times the vector of its variable, or zero if the step does not move it. -/
def termRow (J : JacobianFactor ℚ) (δ : Assignment ℚ) (i : ℕ) (term : Key × List ℚ) : ℚ :=
  match δ.get? term.1 with
  | some d => ∑ j ∈ range (J.width term.2), term.2.getD (i * J.width term.2 + j) 0 * d.getD j 0
  | none => 0

/-- Row `i` of the product: the rows of all terms, added up. -/
def rowSum (J : JacobianFactor ℚ) (δ : Assignment ℚ) (i : ℕ) : ℚ := (J.terms.map (J.termRow δ i)).sum

theorem sum_filterMap {β γ : Type} (met : β → Option γ) (f : γ → ℚ) (l : List β) :
    ((l.filterMap met).map f).sum = (l.map fun b => ((met b).map f).getD 0).sum := by
  induction l with
  | nil => rfl
  | cons b l ih => cases here : met b <;> simp [here, ih]

variable {J : JacobianFactor ℚ} {δ ε : Assignment ℚ} {term : Key × List ℚ}

theorem termRow_of_fits (fits : J.Fits δ term) (i : ℕ) :
    (((δ.get? term.1).map fun d => (term.2, d)).map fun p => dot (row p.1 p.2.length i) p.2).getD 0 =
      J.termRow δ i term := by
  unfold termRow
  cases move : δ.get? term.1 with
  | none => rfl
  | some d =>
    have width := fits d move
    simp only [Option.map_some, Option.getD_some]
    rw [width, dot_eq_sum _ width]
    refine sum_congr rfl fun j hj => ?_
    rw [getD_row _ _ _ _ (mem_range.mp hj)]

theorem multiply_of_fits (fits : ∀ term ∈ J.terms, J.Fits δ term) :
    J.multiply δ = .ok ((List.range J.rows).map (J.rowSum δ)) := by
  unfold multiply
  rw [overlap_of_fits fits, Except.map_ok]
  congr 1
  apply List.map_congr_left
  intro i _
  rw [rowProduct_eq_sum, sum_filterMap, rowSum]
  congr 1
  exact List.map_congr_left fun term mem => termRow_of_fits (fits term mem) i

theorem multiply_eq_ok_iff {product : List ℚ} : J.multiply δ = .ok product ↔
    (∀ term ∈ J.terms, J.Fits δ term) ∧ product = (List.range J.rows).map (J.rowSum δ) := by
  constructor
  · intro ok
    have fits := exists_multiply_iff.mp ⟨product, ok⟩
    exact ⟨fits, Except.ok.inj (ok.symm.trans (multiply_of_fits fits))⟩
  · rintro ⟨fits, rfl⟩
    exact multiply_of_fits fits

/-! ## Linearity in the step -/

theorem Fits.plus (first : J.Fits δ term) (second : J.Fits ε term) : J.Fits (δ.plus ε) term := by
  intro d move
  rw [Assignment.get?_plus] at move
  cases here : δ.get? term.1 with
  | none =>
    rw [here, Option.merge_none_left] at move
    exact second d move
  | some a =>
    cases there : ε.get? term.1 with
    | none =>
      rw [here, there] at move
      exact first d (here.trans move)
    | some b =>
      rw [here, there] at move
      cases move
      rw [List.length_zipWith, first a here, second b there, Nat.min_self]

theorem termRow_plus (first : J.Fits δ term) (second : J.Fits ε term) (i : ℕ) :
    J.termRow (δ.plus ε) i term = J.termRow δ i term + J.termRow ε i term := by
  unfold termRow
  rw [Assignment.get?_plus]
  cases here : δ.get? term.1 with
  | none => cases ε.get? term.1 <;> simp [Option.merge]
  | some d =>
    cases there : ε.get? term.1 with
    | none => simp [Option.merge]
    | some e =>
      simp only [Option.merge, ← sum_add_distrib, ← mul_add]
      refine sum_congr rfl fun j hj => ?_
      have hj := mem_range.mp hj
      rw [getD_zipWith _ _ _ j 0 0 0 (by rwa [first d here]) (by rwa [second e there])]

theorem multiply_plus {p q : List ℚ} (first : J.multiply δ = .ok p) (second : J.multiply ε = .ok q) :
    J.multiply (δ.plus ε) = .ok (List.zipWith (· + ·) p q) := by
  obtain ⟨fits, rfl⟩ := multiply_eq_ok_iff.mp first
  obtain ⟨fits', rfl⟩ := multiply_eq_ok_iff.mp second
  refine multiply_eq_ok_iff.mpr ⟨fun term mem => (fits term mem).plus (fits' term mem), ?_⟩
  rw [List.zipWith_map, List.zipWith_self]
  apply List.map_congr_left
  intro i _
  unfold rowSum
  rw [← List.sum_map_add]
  congr 1
  exact List.map_congr_left fun term mem => (termRow_plus (fits term mem) (fits' term mem) i).symm

section Multiples

variable (factor : ℚ)

theorem fits_times_iff : J.Fits (δ.times factor) term ↔ J.Fits δ term := by
  unfold Fits
  rw [Assignment.get?_times]
  cases δ.get? term.1 <;> simp [scale]

theorem misfits_times_iff {e : ConstraintError ℚ} : J.Misfits (δ.times factor) term e ↔ J.Misfits δ term e := by
  unfold Misfits
  rw [Assignment.get?_times]
  cases δ.get? term.1 <;> simp [scale]

theorem termRow_times (i : ℕ) : J.termRow (δ.times factor) i term = J.termRow δ i term * factor := by
  unfold termRow
  rw [Assignment.get?_times]
  cases here : δ.get? term.1 with
  | none => exact (zero_mul factor).symm
  | some d =>
    simp only [Option.map_some, sum_mul]
    refine sum_congr rfl fun j _ => ?_
    rw [getD_scale, mul_assoc]

/-- A multiple of a step is accepted and refused as the step is. -/
theorem multiply_times : J.multiply (δ.times factor) = (J.multiply δ).map (scale · factor) := by
  cases product : J.multiply δ with
  | error e =>
    have refused := multiply_eq_error_iff.mp product
    apply multiply_eq_error_iff.mpr
    simpa only [FirstMisfit, fits_times_iff, misfits_times_iff] using refused
  | ok p =>
    obtain ⟨fits, rfl⟩ := multiply_eq_ok_iff.mp product
    refine multiply_eq_ok_iff.mpr ⟨fun term mem => (fits_times_iff factor).mpr (fits term mem), ?_⟩
    simp only [scale, List.map_map]
    apply List.map_congr_left
    intro i _
    have rows : J.termRow (δ.times factor) i = fun term => J.termRow δ i term * factor :=
      funext fun term => termRow_times factor i
    rw [Function.comp_apply, rowSum, rowSum, rows, List.sum_map_mul_right]

end Multiples

/-! ## Building and evaluating -/

/-- Terms are kept if there is a row and all blocks consist of whole rows, and else the first fault is reported.
Then a step has a product if it fits all terms, and else the first misfit is reported; the product has one number
for each row, the error vector is the product minus the right-hand side, and the value of an inequality is its first
component. Over the rationals a row of the product is the sum of the rows of all terms, and the product is linear in
the step. -/
theorem rows_evaluated :
    (∀ {α : Type} (terms : List (Key × List α)) (rhs : List α),
      ((∃ f, ofTerms terms rhs = .error f) ↔ rhs = [] ∨ ∃ term ∈ terms, ¬ rhs.length ∣ term.2.length) ∧
      (∀ f, ofTerms terms rhs = .error f ↔ Rejects terms rhs f) ∧
      ∀ J, ofTerms terms rhs = .ok J ↔ J.terms = terms ∧ J.rhs = rhs) ∧
    (∀ {α : Type} [Scalar α] (J : JacobianFactor α) (δ : Assignment α),
      ((∃ p, J.multiply δ = .ok p) ↔ ∀ term ∈ J.terms, J.Fits δ term) ∧
      (∀ e, J.multiply δ = .error e ↔ J.FirstMisfit δ e) ∧
      (∀ p, J.multiply δ = .ok p → p.length = J.rhs.length) ∧
      J.errorVector δ = (J.multiply δ).map (fun p => List.zipWith (· - ·) p J.rhs) ∧
      ∀ c : LinearInequality α, c.jacobian = J → (c.error δ).map some = (J.errorVector δ).map List.head?) ∧
    ∀ (J : JacobianFactor ℚ) (δ : Assignment ℚ),
      (∀ p, J.multiply δ = .ok p → p = (List.range J.rhs.length).map (J.rowSum δ)) ∧
      (∀ ε p q, J.multiply δ = .ok p → J.multiply ε = .ok q →
        J.multiply (δ.plus ε) = .ok (List.zipWith (· + ·) p q)) ∧
      ∀ factor, J.multiply (δ.times factor) = (J.multiply δ).map (scale · factor) := by
  refine ⟨fun terms rhs => ⟨exists_ofTerms_eq_error_iff, fun f => ofTerms_eq_error_iff, fun J => ofTerms_eq_ok_iff⟩,
    fun J δ => ⟨exists_multiply_iff, fun e => multiply_eq_error_iff, fun p => length_multiply, rfl, ?_⟩,
    fun J δ => ⟨fun p ok => (multiply_eq_ok_iff.mp ok).2, fun ε p q => multiply_plus, multiply_times⟩⟩
  rintro c rfl
  exact c.error_eq_head δ

/-- Two rows over three variables: one has two blocks, and one has no coordinates. -/
def twoRows : JacobianFactor ℚ where
  terms := [(⟨1⟩, [1, 2, 3, 4]), (⟨2⟩, [5, 6]), (⟨1⟩, [0, 1, 1, 0]), (⟨3⟩, [])]
  rhs := [1, -1]
  rhs_ne_nil := by decide
  rows_dvd := by decide

/-- The first step leaves a variable out that the second one moves. -/
theorem rows_evaluated_twoRows :
    ofTerms twoRows.terms [1, -1] = .ok twoRows ∧
    twoRows.multiply (.plus (.ofList [(⟨1⟩, [1, -1]), (⟨3⟩, [])]) (.ofList [(⟨1⟩, [2, 0]), (⟨2⟩, [1])])) =
      .ok [5, 14] ∧
    (LinearInequality.error { jacobian := twoRows, dualKey := ⟨7⟩ } (.ofList [(⟨1⟩, [1, -1]), (⟨3⟩, [])])).map some =
      .ok (some (-3)) := by
  obtain ⟨construction, evaluation, linear⟩ := rows_evaluated
  obtain ⟨_, sums, _⟩ := linear twoRows (.ofList [(⟨1⟩, [1, -1]), (⟨3⟩, [])])
  obtain ⟨_, _, _, _, first⟩ := evaluation twoRows (.ofList [(⟨1⟩, [1, -1]), (⟨3⟩, [])])
  refine ⟨((construction _ _).2.2 twoRows).mpr ⟨rfl, rfl⟩, ?_, ?_⟩
  · refine (sums (.ofList [(⟨1⟩, [2, 0]), (⟨2⟩, [1])]) [-2, 0] [7, 14] (by decide +kernel) (by decide +kernel)).trans ?_
    decide +kernel
  · refine (first { jacobian := twoRows, dualKey := ⟨7⟩ } rfl).trans ?_
    decide +kernel

end JacobianFactor

end InequalityLayer
