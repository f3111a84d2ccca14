import InequalityLayer.Linear.Dense
import Mathlib

/-!
Dense linear algebra over the rationals. In exact arithmetic the order of operations and the sign of a
zero no longer matter, so the evaluators are the sums they stand for: `dot_eq_sum`, `quadraticForm_eq_sum`.
Entries of tables and of averaged matrices are read by `getD_tabulate` and `symmetrize_tabulate`.
-/
namespace InequalityLayer
set_option autoImplicit false
open Finset

/-! ## Entries -/

section Entries

variable {α : Type}

theorem getD_row (entries : List α) (width i k : ℕ) (below : k < width) (x : α) :
    (row entries width i).getD k x = entries.getD (i * width + k) x := by
  simp only [row, List.getD_eq_getElem?_getD]
  rw [List.getElem?_take_of_lt below, List.getElem?_drop]

theorem overwrite_of_length {target source : List α} (h : target.length = source.length) :
    overwrite target source = source := by
  unfold overwrite
  rw [h, List.take_length, ← h, List.drop_length, List.append_nil]

theorem tabulate_succ (rows columns : ℕ) (f : ℕ → ℕ → α) :
    tabulate (rows + 1) columns f = tabulate rows columns f ++ (List.range columns).map (f rows) := by
  unfold tabulate
  rw [List.range_succ, List.flatMap_append, List.flatMap_singleton]

theorem getD_tabulate {rows columns i k : ℕ} (f : ℕ → ℕ → α) (hi : i < rows) (hk : k < columns) (x : α) :
    (tabulate rows columns f).getD (i * columns + k) x = f i k := by
  induction rows with
  | zero => omega
  | succ rows ih =>
    rw [tabulate_succ]
    by_cases h : i < rows
    · have inside : i * columns + k < (tabulate rows columns f).length := by
        have := Nat.mul_le_mul_right columns (show i + 1 ≤ rows by omega)
        rw [length_tabulate]
        rw [Nat.succ_mul] at this
        omega
      rw [List.getD_append _ _ _ _ inside, ih h]
    · obtain rfl : i = rows := by omega
      rw [List.getD_append_right _ _ _ _ (by rw [length_tabulate]; omega), length_tabulate,
        Nat.add_sub_cancel_left, List.getD_eq_getElem _ _ (by simpa using hk)]
      simp

theorem tabulate_congr {rows columns : ℕ} {f g : ℕ → ℕ → α}
    (h : ∀ i < rows, ∀ k < columns, f i k = g i k) : tabulate rows columns f = tabulate rows columns g := by
  unfold tabulate
  apply List.flatMap_congr
  intro i hi
  apply List.map_congr_left
  intro k hk
  exact h i (List.mem_range.mp hi) k (List.mem_range.mp hk)

theorem getD_zipWith {β γ : Type} (f : α → β → γ) (a : List α) (b : List β) (i : ℕ) (x : α) (y : β) (z : γ)
    (ha : i < a.length) (hb : i < b.length) :
    (List.zipWith f a b).getD i z = f (a.getD i x) (b.getD i y) := by
  rw [List.getD_eq_getElem _ _ (by rw [List.length_zipWith]; omega), List.getElem_zipWith,
    List.getD_eq_getElem _ _ ha, List.getD_eq_getElem _ _ hb]

end Entries

/-! ## Sums and products -/

theorem sum_rat (terms : List ℚ) : InequalityLayer.sum terms = terms.sum := by
  unfold InequalityLayer.sum
  rw [List.sum_eq_foldl, zero_rat, neg_zero]

theorem dot_nil_left (b : List ℚ) : dot [] b = 0 := by
  rw [dot, List.zipWith_nil_left, sum_rat, List.sum_nil]

theorem dot_nil_right (a : List ℚ) : dot a [] = 0 := by
  rw [dot, List.zipWith_nil_right, sum_rat, List.sum_nil]

theorem dot_cons (a b : ℚ) (as bs : List ℚ) : dot (a :: as) (b :: bs) = a * b + dot as bs := by
  simp only [dot, sum_rat, List.zipWith_cons_cons, List.sum_cons]

theorem dot_append {a b : List ℚ} (c d : List ℚ) (h : a.length = b.length) :
    dot (a ++ c) (b ++ d) = dot a b + dot c d := by
  simp only [dot, sum_rat, List.zipWith_append h, List.sum_append]

theorem dot_zeros (a : List ℚ) (n : ℕ) : dot a (List.replicate n 0) = 0 := by
  induction n generalizing a with
  | zero => exact dot_nil_right a
  | succ n ih =>
    cases a with
    | nil => exact dot_nil_left _
    | cons a as => rw [List.replicate_succ, dot_cons, ih, mul_zero, zero_add]

theorem dot_comm (a b : List ℚ) : dot a b = dot b a := by
  rw [dot, dot, List.zipWith_comm]
  simp only [mul_comm]

theorem dot_eq_sum (a : List ℚ) {b : List ℚ} {n : ℕ} (length : b.length = n) :
    dot a b = ∑ i ∈ range n, a.getD i 0 * b.getD i 0 := by
  induction b generalizing a n with
  | nil =>
    subst length
    exact dot_nil_right a
  | cons b bs ih =>
    subst length
    rw [List.length_cons, sum_range_succ']
    cases a with
    | nil => simp [dot_nil_left]
    | cons a as =>
      rw [dot_cons, ih as rfl, add_comm]
      rfl

/-! ## Quadratic forms -/

/-- Leaving out the rows of zero coordinates changes nothing here. -/
theorem foldl_skip_zero (f : ℕ → ℚ) (x : List ℚ) (start : ℕ) (s : ℚ) :
    (x.zipIdx start).foldl (fun s p => if Scalar.agrees p.1 0.0 then s else s + p.1 * f p.2) s =
      s + ∑ i ∈ range x.length, x.getD i 0 * f (start + i) := by
  induction x generalizing start s with
  | nil => simp
  | cons x xs ih =>
    rw [List.zipIdx_cons, List.foldl_cons, ih, List.length_cons, sum_range_succ']
    have step : (if Scalar.agrees x 0.0 then s else s + x * f start) = s + x * f start := by
      by_cases h : x = 0
      · rw [if_pos ((agrees_rat x 0.0).mpr (h.trans zero_rat.symm)), h, zero_mul, add_zero]
      · rw [if_neg fun e => h (((agrees_rat x 0.0).mp e).trans zero_rat)]
    rw [step, add_assoc, add_comm (x * f start)]
    simp only [List.getD_cons_zero, List.getD_cons_succ, add_zero, add_assoc, add_comm 1]

theorem quadraticForm_eq_sum (a : List ℚ) {x : List ℚ} {n : ℕ} (length : x.length = n) :
    quadraticForm a x =
      ∑ i ∈ range n, ∑ k ∈ range n, a.getD (i * n + k) 0 * (x.getD i 0 * x.getD k 0) := by
  subst length
  rw [quadraticForm, foldl_skip_zero (fun i => dot (row a x.length i) x), zero_rat, zero_add]
  refine sum_congr rfl fun i _ => ?_
  rw [Nat.zero_add, dot_eq_sum _ rfl, mul_sum]
  refine sum_congr rfl fun k hk => ?_
  rw [getD_row _ _ _ _ (mem_range.mp hk)]
  ring

theorem getD_scale (a : List ℚ) (factor : ℚ) (i : ℕ) : (scale a factor).getD i 0 = a.getD i 0 * factor := by
  unfold scale
  rw [List.getD_eq_getElem?_getD, List.getElem?_map, List.getD_eq_getElem?_getD]
  cases a[i]? <;> simp

theorem quadraticForm_scale (a : List ℚ) (factor : ℚ) (x : List ℚ) :
    quadraticForm (scale a factor) x = factor * quadraticForm a x := by
  rw [quadraticForm_eq_sum _ rfl, quadraticForm_eq_sum _ rfl, mul_sum]
  refine sum_congr rfl fun i _ => ?_
  rw [mul_sum]
  refine sum_congr rfl fun k _ => ?_
  rw [getD_scale]
  ring

theorem quadraticForm_tabulate (f : ℕ → ℕ → ℚ) {x : List ℚ} {n : ℕ} (length : x.length = n) :
    quadraticForm (tabulate n n f) x =
      ∑ i ∈ range n, ∑ k ∈ range n, f i k * (x.getD i 0 * x.getD k 0) := by
  rw [quadraticForm_eq_sum _ length]
  refine sum_congr rfl fun i hi => sum_congr rfl fun k hk => ?_
  rw [getD_tabulate f (mem_range.mp hi) (mem_range.mp hk)]

theorem symmetrize_tabulate (n : ℕ) (f : ℕ → ℕ → ℚ) :
    symmetrize (tabulate n n f) n = tabulate n n fun i k => 1 / 2 * (f i k + f k i) := by
  unfold symmetrize
  apply tabulate_congr
  intro i hi k hk
  have entry : ∀ i < n, ∀ k < n, entryOf (tabulate n n f) n i k = f i k := fun i hi k hk =>
    getD_tabulate f hi hk 0.0
  by_cases h : i = k
  · subst h
    rw [if_pos rfl, entry i hi i hi]
    ring
  · rw [if_neg h, half_rat]
    obtain less | less := Nat.lt_or_gt_of_ne h
    · rw [min_eq_left less.le, max_eq_right less.le, entry i hi k hk, entry k hk i hi]
    · rw [min_eq_right less.le, max_eq_left less.le, entry i hi k hk, entry k hk i hi, add_comm]

end InequalityLayer
