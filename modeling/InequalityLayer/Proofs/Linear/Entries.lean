import InequalityLayer.Proofs.Exact.Blocks
import InequalityLayer.Proofs.Positions.Dense
import Mathlib

/-!
Look-ups in the matrix of a form. An entry is looked up by its position along the rows, and only the position is compared
with the number of entries (`entry_eq`). A pair of coordinates finds the coefficient of their product
(`curvature_eq_tabulate`). A column past the end of a row is counted on into the rows below it, and there are such rows
unless the matrix has at most one (`inside_iff_of_dim`). Main statement: `entry_by_position`.
-/
namespace InequalityLayer.HessianFactor
set_option autoImplicit false
open Finset

variable {α : Type} {v : α} {H : HessianFactor α} {row column : ℕ}

theorem length_eq (H : HessianFactor α) : H.curvature.length = H.dim * H.dim := H.length_curvature

/-- The fault of a position outside the matrix, or of one that is no word. -/
def outside (H : HessianFactor α) (row column : ℕ) : Fault :=
  if Size.limit ≤ row * H.dim then .productOverflow
  else if Size.limit ≤ row * H.dim + column then .sumOverflow
  else .outOfBounds (H.dim * H.dim) (row * H.dim + column)

/-- Positions within the matrix are words, as their number is one. -/
theorem entry_eq (words : H.dim * H.dim < Size.limit) (row column : ℕ) :
    H.entry row column =
      match H.curvature[row * H.dim + column]? with
      | some v => .ok v
      | none => .error (H.outside row column) := by
  have length := H.length_eq
  change (do
    Size.check Size.limit (row * H.dim) .productOverflow
    Size.check Size.limit (row * H.dim + column) .sumOverflow
    if inside : row * H.dim + column < H.curvature.length then .ok H.curvature[row * H.dim + column]
    else .error (.outOfBounds H.curvature.length (row * H.dim + column))) = _
  unfold outside
  by_cases product : row * H.dim < Size.limit
  · by_cases sum : row * H.dim + column < Size.limit
    · rw [Size.check_eq_ok _ product, Size.check_eq_ok _ sum, if_neg (by omega), if_neg (by omega), ← length]
      by_cases inside : row * H.dim + column < H.curvature.length
      · rw [List.getElem?_eq_getElem inside, dif_pos inside]
        rfl
      · rw [List.getElem?_eq_none (by omega), dif_neg inside]
        rfl
    · rw [Size.check_eq_ok _ product, Size.check_eq_error _ (by omega), if_neg (by omega), if_pos (by omega),
        List.getElem?_eq_none (by omega)]
      rfl
  · rw [Size.check_eq_error _ (by omega), if_pos (by omega), List.getElem?_eq_none (by omega)]
    rfl

section Found

variable (words : H.dim * H.dim < Size.limit)
include words

theorem entry_eq_ok_iff : H.entry row column = .ok v ↔ H.curvature[row * H.dim + column]? = some v := by
  rw [entry_eq words]
  cases H.curvature[row * H.dim + column]? <;> simp

theorem entry_eq_error_iff {broken : Fault} : H.entry row column = .error broken ↔
    H.dim * H.dim ≤ row * H.dim + column ∧ broken = H.outside row column := by
  rw [entry_eq words, ← H.length_eq, ← List.getElem?_eq_none_iff]
  cases H.curvature[row * H.dim + column]? <;> simp [eq_comm]

theorem exists_entry_iff : (∃ v, H.entry row column = .ok v) ↔ row * H.dim + column < H.dim * H.dim := by
  simp only [entry_eq_ok_iff words, ← Option.isSome_iff_exists, isSome_getElem?, H.length_eq]

theorem row_lt_of_entry (found : H.entry row column = .ok v) : row < H.dim := by
  have inside := (exists_entry_iff words).mp ⟨v, found⟩
  exact Nat.lt_of_mul_lt_mul_right (Nat.lt_of_add_right_lt inside)

/-- A column past the end of its row is counted on into the rows below. -/
theorem entry_carried (found : H.entry row column = .ok v) :
    H.entry (row + column / H.dim) (column % H.dim) = .ok v := by
  have position : (row + column / H.dim) * H.dim + column % H.dim = row * H.dim + column := by
    rw [Nat.add_mul, Nat.add_assoc, Nat.div_add_mod']
  rw [entry_eq_ok_iff words, position]
  exact (entry_eq_ok_iff words).mp found

/-- Behind the first row stands a second one, unless there is at most one. -/
theorem inside_iff_of_dim :
    (∀ row column, (∃ v, H.entry row column = .ok v) ↔ row < H.dim ∧ column < H.dim) ↔ H.dim ≤ 1 := by
  simp only [exists_entry_iff words]
  constructor
  · intro inside
    by_contra several
    have below : 0 * H.dim + H.dim < H.dim * H.dim := by
      rw [Nat.zero_mul, Nat.zero_add]
      exact Nat.lt_mul_self_iff.mpr (by omega)
    exact Nat.lt_irrefl _ ((inside 0 H.dim).mp below).2
  · intro single row column
    obtain none | one : H.dim = 0 ∨ H.dim = 1 := by omega
    · rw [none]
      omega
    · rw [one]
      omega

end Found

/-! ## Coefficients -/

theorem entry_inside [Scalar α] (words : H.dim * H.dim < Size.limit) (hr : row < H.dim) (hc : column < H.dim) :
    H.entry row column = .ok (entryOf H.curvature H.dim row column) := by
  have inside : row * H.dim + column < H.curvature.length := H.length_eq ▸ ByPosition.position_lt hr hc
  rw [entry_eq_ok_iff words, entryOf, List.getD_eq_getElem _ _ inside, List.getElem?_eq_getElem inside]

/-- The matrix is the table of its entries. -/
theorem curvature_eq_tabulate [Scalar α] (words : H.dim * H.dim < Size.limit) {c : ℕ → ℕ → α}
    (entries : ∀ row < H.dim, ∀ column < H.dim, H.entry row column = .ok (c row column)) :
    H.curvature = tabulate H.dim H.dim c := by
  have table : tabulate H.dim H.dim (entryOf H.curvature H.dim) = H.curvature :=
    ByPosition.tabulate_getD H.length_eq 0.0
  exact table.symm.trans (tabulate_congr fun row hr column hc =>
    Except.ok.inj ((entry_inside words hr hc).symm.trans (entries row hr column hc)))

theorem error_of_entries [Scalar α] (words : H.dim * H.dim < Size.limit) {c : ℕ → ℕ → α}
    (entries : ∀ row < H.dim, ∀ column < H.dim, H.entry row column = .ok (c row column)) (δ : Assignment α) :
    H.error δ = (fun x => 0.5 * quadraticForm (tabulate H.dim H.dim c) x - dot H.linear x + H.constant) <$>
      H.layout.stackStep δ := by
  rw [error, curvature_eq_tabulate words entries]

/-- A pair of coordinates inside the matrix finds the coefficient of their product in the value of the form. In general what
is found is what stands at the pair's position along the rows. So no pair is found with a row outside, but a column past
the end of its row finds an entry of a row below, as long as there is one: only a matrix with at most one row
tells the pairs inside from those outside. -/
theorem entry_by_position (L : Layout) :
    (∀ (α : Type) [Scalar α] (G g : List α) (f : α) (H : HessianFactor α), ofParts L G g f = .ok H →
      (∀ row column v, H.entry row column = .ok v ↔ G[row * L.dim + column]? = some v) ∧
      (∀ row column broken, H.entry row column = .error broken ↔
        L.dim * L.dim ≤ row * L.dim + column ∧ broken = H.outside row column) ∧
      (∀ row column v, H.entry row column = .ok v →
        row < L.dim ∧ H.entry (row + column / L.dim) (column % L.dim) = .ok v) ∧
      ((∀ row column, (∃ v, H.entry row column = .ok v) ↔ row < L.dim ∧ column < L.dim) ↔ L.dim ≤ 1) ∧
      ∃ c : ℕ → ℕ → α, (∀ row < L.dim, ∀ column < L.dim, H.entry row column = .ok (c row column)) ∧
        ∀ δ, H.error δ = (fun x => 0.5 * quadraticForm (tabulate L.dim L.dim c) x - dot g x + f) <$> L.stackStep δ) ∧
    ∀ (G g : List ℚ) (f : ℚ) (H : HessianFactor ℚ) (c : ℕ → ℕ → ℚ), ofParts L G g f = .ok H →
      (∀ row < L.dim, ∀ column < L.dim, H.entry row column = .ok (c row column)) →
      ∀ δ x, L.stackStep δ = .ok x → H.error δ =
        .ok (1 / 2 * ∑ row ∈ range L.dim, ∑ column ∈ range L.dim, c row column * (x.getD row 0 * x.getD column 0) -
          dot g x + f) := by
  constructor
  · intro α _ G g f H made
    obtain ⟨_, words, rfl, rfl, rfl, rfl⟩ := ofParts_eq_ok_iff.mp made
    have entries : ∀ row < H.dim, ∀ column < H.dim,
        H.entry row column = .ok (entryOf H.curvature H.dim row column) :=
      fun row hr column hc => entry_inside words hr hc
    exact ⟨fun row column v => entry_eq_ok_iff words, fun row column broken => entry_eq_error_iff words,
      fun row column v found => ⟨row_lt_of_entry words found, entry_carried words found⟩, inside_iff_of_dim words,
      entryOf H.curvature H.dim, entries, error_of_entries words entries⟩
  · intro G g f H c made entries δ x stacked
    obtain ⟨_, words, rfl, rfl, rfl, rfl⟩ := ofParts_eq_ok_iff.mp made
    have length : x.length = H.dim := Layout.length_stackStep stacked
    rw [error_of_entries words entries, stacked, Except.map_ok, half_rat, quadraticForm_tabulate c length]
    rfl

/-- Two variables with one coordinate each; the last entry is found from the first row, too. -/
theorem entry_by_position_twoRows :
    ∃ H, ofParts [(⟨1⟩, 1), (⟨2⟩, 1)] [(1 : ℚ), 2, 3, 4] [1, 0] 5 = .ok H ∧
      H.entry 0 3 = .ok 4 ∧ H.entry 1 1 = .ok 4 ∧ H.entry 2 0 = .error (.outOfBounds 4 4) ∧
      H.error (.ofList [(⟨1⟩, [2]), (⟨2⟩, [3])]) = .ok (1 / 2 * (1 * 4 + 2 * 6 + (3 * 6 + 4 * 9)) - 2 + 5) := by
  obtain ⟨general, coefficients⟩ := entry_by_position [(⟨1⟩, 1), (⟨2⟩, 1)]
  obtain ⟨H, made⟩ : ∃ H, ofParts [(⟨1⟩, 1), (⟨2⟩, 1)] [(1 : ℚ), 2, 3, 4] [1, 0] 5 = .ok H := ⟨_, rfl⟩
  obtain ⟨found, missing, carried, _, c, entries, _⟩ := general ℚ _ _ _ H made
  obtain ⟨_, _, layout, _⟩ := ofParts_eq_ok_iff.mp made
  have last : H.entry 0 3 = .ok 4 := (found 0 3 4).mpr rfl
  refine ⟨H, made, last, (carried 0 3 4 last).2, (missing 2 0 _).mpr ⟨by decide, ?_⟩, ?_⟩
  · rw [outside, show H.dim = 2 from congrArg Layout.dim layout]
    rfl
  · have value (row column : ℕ) (v : ℚ) (hr : row < 2) (hc : column < 2)
        (read : [(1 : ℚ), 2, 3, 4][row * 2 + column]? = some v) : c row column = v :=
      Except.ok.inj ((entries row hr column hc).symm.trans ((found row column v).mpr read))
    rw [coefficients _ _ _ H c made entries _ [2, 3] rfl]
    change Except.ok (1 / 2 * ∑ row ∈ range 2, ∑ column ∈ range 2,
      c row column * ([(2 : ℚ), 3].getD row 0 * [(2 : ℚ), 3].getD column 0) - dot [1, 0] [2, 3] + 5) = _
    simp only [sum_range_succ, sum_range_zero]
    rw [value 0 0 1 (by decide) (by decide) rfl, value 0 1 2 (by decide) (by decide) rfl,
      value 1 0 3 (by decide) (by decide) rfl, value 1 1 4 (by decide) (by decide) rfl]
    decide +kernel

/-- Behind the first row of two columns the next row begins. -/
theorem entry_past_row :
    ∃ H : HessianFactor Float, ofParts [(⟨1⟩, 2)] [1.0, 2.0, 3.0, 4.0] [0.0, 0.0] 0.0 = .ok H ∧ H.dim = 2 ∧
      H.entry 0 2 = .ok 3.0 ∧ H.entry 1 0 = .ok 3.0 ∧ ¬ ((∃ v, H.entry 0 2 = .ok v) ↔ 0 < H.dim ∧ 2 < H.dim) := by
  refine ⟨_, rfl, rfl, rfl, rfl, fun inside => ?_⟩
  exact absurd (inside.mp ⟨3.0, rfl⟩).2 (Nat.lt_irrefl 2)

end InequalityLayer.HessianFactor
