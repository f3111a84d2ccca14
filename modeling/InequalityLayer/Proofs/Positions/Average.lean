import InequalityLayer.Proofs.Positions.Dense
import Mathlib

/-!
Averaging in place, over the rationals. The loop leaves the mean of each pair of opposite entries in both of their
places (`symmetrize_square`). Opposite entries multiply the same product of coordinates, so that the quadratic form is
kept (`form_averaged`), and the mean of two equal entries is the entry, so that nothing is left to average
(`symmetrize_averaged`). A form reads no coordinate behind the first `n` (`quadraticForm_take`) and stops at the first
one that is missing (`quadraticForm_short`), whatever the matrix is. Main statement: `symmetrize_projects`.
-/
namespace InequalityLayer.ByPosition
set_option autoImplicit false
open Finset

/-! ## Forms at vectors of another length -/

/-- A loop fails at the first number for which it always does. -/
theorem foldlM_stops {ε β : Type} {body : β → ℕ → Except ε β} {e : ε} {m : ℕ} {before : List ℕ}
    (passing : ∀ i ∈ before, ∀ s, ∃ s', body s i = .ok s') (failing : ∀ s, body s m = .error e)
    (after : List ℕ) (s : β) : (before ++ m :: after).foldlM body s = .error e := by
  induction before generalizing s with
  | nil =>
    rw [List.nil_append, List.foldlM_cons, failing]
    rfl
  | cons i before ih =>
    obtain ⟨s', round⟩ := passing i List.mem_cons_self s
    rw [List.cons_append, List.foldlM_cons, round]
    exact ih (fun j later => passing j (List.mem_cons_of_mem i later)) s'

theorem range_eq_append {m n : ℕ} (below : m < n) : ∃ after, List.range n = List.range m ++ m :: after := by
  obtain ⟨rest, rfl⟩ : ∃ rest, n = m + (rest + 1) := ⟨n - m - 1, by omega⟩
  rw [List.range_add, List.range_succ_eq_map]
  exact ⟨_, rfl⟩

section Form

variable {α : Type} [Scalar α] {a x : List α} {n i : ℕ}

theorem dot_take {u : List α} (length : u.length = n) (v : List α) : dot u (v.take n) = dot u v := by
  have covered : (List.zipWith (· * ·) u v).take n = List.zipWith (· * ·) u v :=
    List.take_of_length_le (by rw [List.length_zipWith]; omega)
  rw [dot, dot, ← covered, List.take_zipWith, List.take_of_length_le length.le]

variable (square : a.length = n * n)
include square

theorem addRow_take (below : i < n) (long : n ≤ x.length) (s : α) :
    addRow a x n s i = addRow a (x.take n) n s i := by
  have length : (x.take n).length = n := List.length_take_of_le long
  rw [addRow_of_lt square below (by omega), addRow_of_lt square below (by omega), List.getElem_take,
    dot_take (length_row a n n i square below)]

theorem quadraticForm_take (long : n ≤ x.length) :
    quadraticForm a x n = .ok (InequalityLayer.quadraticForm a (x.take n)) := by
  have length : (x.take n).length = n := List.length_take_of_le long
  have run : quadraticForm a x n = .ok (formTo a (x.take n) n) := by
    refine foldlM_range (formTo a (x.take n)) n fun i below => ?_
    have round := addRow_formTo (a := a) (x := x.take n) (by rw [length, square]) (i := i) (by omega)
    rwa [length, ← addRow_take square below long] at round
  rw [run, ← formTo_length, length]

theorem quadraticForm_short (short : x.length < n) :
    quadraticForm a x n = .error (.outOfBounds x.length x.length) := by
  obtain ⟨after, split⟩ := range_eq_append short
  rw [quadraticForm, split]
  refine foldlM_stops (fun i earlier s => ?_) (fun s => ?_) after 0.0
  · have inside := List.mem_range.mp earlier
    exact ⟨_, addRow_of_lt square (inside.trans short) inside s⟩
  · rw [addRow, entryAt, dif_neg (Nat.lt_irrefl _)]
    rfl

end Form

/-! ## Means of opposite entries -/

variable {n : ℕ}

theorem symmetrize_square {a : List ℚ} (square : a.length = n * n) :
    InequalityLayer.symmetrize a n =
      tabulate n n fun i k => 1 / 2 * (entryOf a n i k + entryOf a n k i) := by
  have table : tabulate n n (entryOf a n) = a := tabulate_getD square 0.0
  rw [← symmetrize_tabulate, table]

theorem symmetrize_averaged {a : List ℚ} {f : ℕ → ℕ → ℚ} (symm : ∀ i k, f i k = f k i)
    (table : a = tabulate n n f) : InequalityLayer.symmetrize a n = a := by
  subst table
  rw [symmetrize_tabulate]
  refine tabulate_congr fun i _ k _ => ?_
  rw [symm k i]
  ring

/-- The sum over all pairs is also the sum over all opposite pairs. -/
theorem form_averaged (f : ℕ → ℕ → ℚ) (x : ℕ → ℚ) :
    ∑ i ∈ range n, ∑ k ∈ range n, 1 / 2 * (f i k + f k i) * (x i * x k) =
      ∑ i ∈ range n, ∑ k ∈ range n, f i k * (x i * x k) := by
  have opposite : ∑ i ∈ range n, ∑ k ∈ range n, f k i * (x i * x k) =
      ∑ i ∈ range n, ∑ k ∈ range n, f i k * (x i * x k) := by
    rw [sum_comm]
    refine sum_congr rfl fun i _ => sum_congr rfl fun k _ => ?_
    rw [mul_comm (x k)]
  calc ∑ i ∈ range n, ∑ k ∈ range n, 1 / 2 * (f i k + f k i) * (x i * x k)
      = 1 / 2 * ∑ i ∈ range n, ∑ k ∈ range n, f i k * (x i * x k) +
          1 / 2 * ∑ i ∈ range n, ∑ k ∈ range n, f k i * (x i * x k) := by
        simp only [mul_sum, ← sum_add_distrib]
        refine sum_congr rfl fun i _ => sum_congr rfl fun k _ => ?_
        ring
    _ = ∑ i ∈ range n, ∑ k ∈ range n, f i k * (x i * x k) := by
        rw [opposite]
        ring

theorem quadraticForm_averaged {a x : List ℚ} (square : a.length = n * n) (length : x.length = n) :
    InequalityLayer.quadraticForm (InequalityLayer.symmetrize a n) x = InequalityLayer.quadraticForm a x := by
  rw [symmetrize_square square, quadraticForm_tabulate _ length, form_averaged (entryOf a n) fun i => x.getD i 0,
    ← quadraticForm_tabulate _ length]
  exact congrArg (InequalityLayer.quadraticForm · x) (tabulate_getD square 0.0)

/-- The loop over the pairs above the diagonal always ends with a matrix, the same as without overwriting: every entry
is half the sum of what stood in its place and in the opposite one. So the diagonal is kept and the matrix is symmetric,
the quadratic form answers the same for every vector, one that is too short included, and a second loop changes
nothing. -/
theorem symmetrize_projects (n : ℕ) (a : List ℚ) (square : a.length = n * n) :
    ∃ s, symmetrize a n = .ok s ∧ InequalityLayer.symmetrize a n = s ∧ s.length = n * n ∧
      (∀ i < n, ∀ k < n, entryOf s n i k = 1 / 2 * (entryOf a n i k + entryOf a n k i)) ∧
      (∀ i < n, entryOf s n i i = entryOf a n i i) ∧
      (∀ i < n, ∀ k < n, entryOf s n i k = entryOf s n k i) ∧
      (∀ x, quadraticForm s x n = quadraticForm a x n) ∧
      (∀ x, x.length = n → InequalityLayer.quadraticForm s x = InequalityLayer.quadraticForm a x) ∧
      symmetrize s n = .ok s := by
  set s := InequalityLayer.symmetrize a n with averaged
  have square' : s.length = n * n := length_tabulate n n _
  have entry : ∀ i < n, ∀ k < n, entryOf s n i k = 1 / 2 * (entryOf a n i k + entryOf a n k i) := by
    intro i hi k hk
    rw [averaged, symmetrize_square square]
    exact getD_tabulate _ hi hk 0.0
  refine ⟨s, symmetrize_eq square, rfl, square', entry, ?_, ?_, ?_, ?_, ?_⟩
  · intro i hi
    rw [entry i hi i hi]
    ring
  · intro i hi k hk
    rw [entry i hi k hk, entry k hk i hi, add_comm]
  · intro x
    by_cases short : x.length < n
    · rw [quadraticForm_short square' short, quadraticForm_short square short]
    · have long : n ≤ x.length := by omega
      rw [quadraticForm_take square' long, quadraticForm_take square long,
        quadraticForm_averaged square (List.length_take_of_le long)]
  · exact fun x length => quadraticForm_averaged square length
  · rw [symmetrize_eq square', symmetrize_averaged (fun i k => ?_) (symmetrize_square square)]
    rw [add_comm]

/-- Three rows, at a vector of three coordinates and at one that is too short. -/
theorem symmetrize_projects_threeRows :
    [(1 : ℚ), 2, 3, 4, 5, 6, 7, 8, 9].length = 3 * 3 ∧
    ∃ s, symmetrize [(1 : ℚ), 2, 3, 4, 5, 6, 7, 8, 9] 3 = .ok s ∧ s = [1, 3, 5, 3, 5, 7, 5, 7, 9] ∧
      quadraticForm s [1, -1, 2] 3 = .ok 28 ∧ quadraticForm s [1] 3 = .error (.outOfBounds 1 1) ∧
      symmetrize s 3 = .ok s := by
  obtain ⟨s, run, _, _, _, _, _, form, _, again⟩ := symmetrize_projects 3 [1, 2, 3, 4, 5, 6, 7, 8, 9] rfl
  have made : symmetrize [(1 : ℚ), 2, 3, 4, 5, 6, 7, 8, 9] 3 = .ok [1, 3, 5, 3, 5, 7, 5, 7, 9] := by decide +kernel
  refine ⟨rfl, s, run, Except.ok.inj (run.symm.trans made), ?_, ?_, again⟩
  · rw [form]
    decide +kernel
  · rw [form]
    decide +kernel

end InequalityLayer.ByPosition
