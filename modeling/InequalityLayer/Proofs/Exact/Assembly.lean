import InequalityLayer.Proofs.Exact.Rows
import Mathlib

/-!
The matrix that the look-ups describe, over the rationals. Assembled from the variables of a factor, their numbers
of coordinates and their blocks, every occurrence of a variable has its first block, while a product uses the block
of each term. Both are sums over the variables (`sum_by_key`), and one variable adds to them the sum of its blocks
(`sum_termRow_of_move`) or as many copies of the first (`sum_lookedUp_of_move`). So they agree on all steps exactly
if the first block of each variable is the mean of its blocks, or no step fits them all: `multiply_eq_assembled_iff`.
A variable that occurs once is such a one (`firstIsMean_of_nodup`).
-/
namespace InequalityLayer.JacobianFactor
set_option autoImplicit false
open Finset

/-! ## Looking blocks up -/

section Blocks

variable {α : Type} (J : JacobianFactor α) (key : Key)

/-- The terms of a variable, in order. -/
def termsOf : List (Key × List α) := J.terms.filter fun term => decide (term.1 = key)

/-- The blocks of a variable, in order. -/
def blocks : List (List α) := (J.termsOf key).map Prod.snd

/-- A term with the block that is answered for its variable. -/
def lookedUp (term : Key × List α) : Key × List α := (term.1, (J.block? term.1).getD [])

variable {J} {key} {term : Key × List α}

theorem block?_eq_head? : J.block? key = (J.blocks key).head? := by
  rw [block?, blocks, termsOf, List.head?_map, List.head?_filter]

theorem mem_termsOf : term ∈ J.termsOf key ↔ term ∈ J.terms ∧ term.1 = key := by
  simp [termsOf]

theorem mem_blocks {block : List α} : block ∈ J.blocks key ↔ (key, block) ∈ J.terms := by
  simp [blocks, termsOf]

theorem mem_of_block? {block : List α} (found : J.block? key = some block) : (key, block) ∈ J.terms :=
  mem_blocks.mp (List.mem_of_mem_head? (block?_eq_head?.symm.trans found))

theorem exists_block?_of_mem (mem : term ∈ J.terms) : ∃ first, J.block? term.1 = some first := by
  have here : term.2 ∈ J.blocks term.1 := mem_blocks.mpr mem
  obtain ⟨first, others, split⟩ := List.exists_cons_of_ne_nil (List.ne_nil_of_mem here)
  exact ⟨first, by rw [block?_eq_head?, split, List.head?_cons]⟩

theorem blocks_of_nodup (once : J.keys.Nodup) {first : List α} (found : J.block? key = some first) :
    J.blocks key = [first] := by
  obtain ⟨others, split⟩ := List.head?_eq_some_iff.mp (block?_eq_head?.symm.trans found)
  have count : (J.blocks key).length = J.keys.count key := by
    rw [blocks, termsOf, List.length_map, keys, List.count_eq_countP, List.countP_map, List.countP_eq_length_filter]
    rfl
  have few := List.nodup_iff_count_le_one.mp once key
  rw [← count, split, List.length_cons] at few
  rw [split, List.eq_nil_of_length_eq_zero (Nat.le_zero.mp (Nat.le_of_succ_le_succ few))]

end Blocks

variable (J : JacobianFactor ℚ)

/-- Row `i` of the product with the matrix that the look-ups describe. -/
def assembledRow (δ : Assignment ℚ) (i : ℕ) : ℚ :=
  (J.keys.map fun key => match δ.get? key, J.dim? key, J.block? key with
    | some d, some width, some block => dot (row block width i) d
    | _, _, _ => 0).sum

/-- The product with the matrix that the look-ups describe. -/
def assembled (δ : Assignment ℚ) : List ℚ := (List.range J.rows).map (J.assembledRow δ)

/-- The blocks of a variable add up to as many copies of the first, or differ in length. -/
def FirstIsMean (key : Key) : Prop :=
  ∀ first, J.block? key = some first → (∀ block ∈ J.blocks key, block.length = first.length) →
    ∀ p < first.length, ((J.blocks key).map (·.getD p 0)).sum = (J.blocks key).length * first.getD p 0

variable {J}

theorem firstIsMean_of_nodup (once : J.keys.Nodup) (key : Key) : J.FirstIsMean key := by
  intro first found _ p _
  simp [blocks_of_nodup once found]

/-! ## One variable at a time -/

theorem sum_by_key (F : Key × List ℚ → ℚ) {keys : Finset Key} {terms : List (Key × List ℚ)}
    (known : ∀ term ∈ terms, term.1 ∈ keys) :
    (terms.map F).sum = ∑ key ∈ keys, ((terms.filter fun term => decide (term.1 = key)).map F).sum := by
  induction terms with
  | nil => simp
  | cons term terms ih =>
    obtain ⟨here, later⟩ := List.forall_mem_cons.mp known
    have first : ∀ key, (((term :: terms).filter fun t => decide (t.1 = key)).map F).sum =
        (if term.1 = key then F term else 0) + ((terms.filter fun t => decide (t.1 = key)).map F).sum := by
      intro key
      by_cases same : term.1 = key <;> simp [same]
    rw [sum_congr rfl fun key _ => first key, sum_add_distrib, sum_ite_eq, if_pos here, List.map_cons,
      List.sum_cons, ih later]

theorem sum_exchange (l : List (List ℚ)) (f : List ℚ → ℕ → ℚ) (x : ℕ → ℚ) (n : ℕ) :
    (l.map fun b => ∑ j ∈ range n, f b j * x j).sum = ∑ j ∈ range n, (l.map (f · j)).sum * x j := by
  induction l with
  | nil => simp
  | cons b l ih => simp [ih, add_mul, sum_add_distrib]

section Variable

variable {δ : Assignment ℚ} {key : Key}

theorem sum_of_still (still : δ.get? key = none) (i : ℕ) :
    ((J.termsOf key).map (J.termRow δ i)).sum = 0 ∧
      ((J.termsOf key).map fun term => J.termRow δ i (J.lookedUp term)).sum = 0 := by
  have zero : ∀ term ∈ J.termsOf key, J.termRow δ i term = 0 ∧ J.termRow δ i (J.lookedUp term) = 0 := by
    intro term mem
    obtain ⟨_, rfl⟩ := mem_termsOf.mp mem
    simp [termRow, lookedUp, still]
  rw [List.map_congr_left fun term mem => (zero term mem).1, List.map_congr_left fun term mem => (zero term mem).2]
  simp

variable {d first : List ℚ} (move : δ.get? key = some d)
include move

theorem sum_termRow_of_move (fits : ∀ term ∈ J.terms, J.Fits δ term) (i : ℕ) :
    ((J.termsOf key).map (J.termRow δ i)).sum =
      ∑ j ∈ range d.length, ((J.blocks key).map (·.getD (i * d.length + j) 0)).sum * d.getD j 0 := by
  rw [← sum_exchange (J.blocks key) (fun b j => b.getD (i * d.length + j) 0), blocks, List.map_map]
  congr 1
  apply List.map_congr_left
  intro term mem
  obtain ⟨known, rfl⟩ := mem_termsOf.mp mem
  simp only [Function.comp_apply, termRow, move, fits term known d move]

theorem sum_lookedUp_of_move (found : J.block? key = some first) (width : d.length = J.width first) (i : ℕ) :
    ((J.termsOf key).map fun term => J.termRow δ i (J.lookedUp term)).sum =
      ∑ j ∈ range d.length, ((J.blocks key).length * first.getD (i * d.length + j) 0) * d.getD j 0 := by
  have same : ∀ term ∈ J.termsOf key,
      J.termRow δ i (J.lookedUp term) = ∑ j ∈ range d.length, first.getD (i * d.length + j) 0 * d.getD j 0 := by
    intro term mem
    obtain ⟨_, rfl⟩ := mem_termsOf.mp mem
    simp only [lookedUp, termRow, move, found, Option.getD_some, width]
  rw [List.map_congr_left same, List.map_const', List.sum_replicate, nsmul_eq_mul, mul_sum, blocks, List.length_map]
  simp only [mul_assoc]

end Variable

/-! ## The assembled product -/

section Steps

variable {δ : Assignment ℚ} (fits : ∀ term ∈ J.terms, J.Fits δ term) (i : ℕ)

include fits in
theorem assembledRow_of_fits :
    J.assembledRow δ i = (J.terms.map fun term => J.termRow δ i (J.lookedUp term)).sum := by
  unfold assembledRow keys
  rw [List.map_map]
  congr 1
  apply List.map_congr_left
  intro term mem
  obtain ⟨first, found⟩ := exists_block?_of_mem mem
  simp only [Function.comp_apply, dim?, lookedUp, found, Option.map_some, Option.getD_some, termRow]
  cases move : δ.get? term.1 with
  | none => rfl
  | some d =>
    have width : d.length = J.width first := fits _ (mem_of_block? found) d move
    simp only [dot_eq_sum _ width]
    refine sum_congr rfl fun j hj => ?_
    rw [getD_row _ _ _ _ (mem_range.mp hj)]

theorem rowSum_by_key : J.rowSum δ i = ∑ key ∈ J.keys.toFinset, ((J.termsOf key).map (J.termRow δ i)).sum :=
  sum_by_key _ fun _ mem => List.mem_toFinset.mpr (List.mem_map_of_mem mem)

include fits in
theorem assembledRow_by_key : J.assembledRow δ i =
    ∑ key ∈ J.keys.toFinset, ((J.termsOf key).map fun term => J.termRow δ i (J.lookedUp term)).sum :=
  (assembledRow_of_fits fits i).trans
    (sum_by_key _ fun _ mem => List.mem_toFinset.mpr (List.mem_map_of_mem mem))

end Steps

/-- All blocks of a variable that moves are as wide as its vector, and what matters of them is their mean. -/
theorem rowSum_eq_assembledRow (mean : ∀ key, J.FirstIsMean key) {δ : Assignment ℚ}
    (fits : ∀ term ∈ J.terms, J.Fits δ term) {i : ℕ} (hi : i < J.rows) : J.rowSum δ i = J.assembledRow δ i := by
  rw [rowSum_by_key, assembledRow_by_key fits]
  refine sum_congr rfl fun key mem => ?_
  cases move : δ.get? key with
  | none => rw [(sum_of_still move i).1, (sum_of_still move i).2]
  | some d =>
    obtain ⟨term, known, rfl⟩ := List.mem_map.mp (List.mem_toFinset.mp mem)
    obtain ⟨first, found⟩ := exists_block?_of_mem known
    have width : ∀ block ∈ J.blocks term.1, J.rows * d.length = block.length := fun block there => by
      rw [fits _ (mem_blocks.mp there) d move]
      exact (J.length_block (mem_blocks.mp there)).symm
    have firstWidth := fits _ (mem_of_block? found) d move
    have firstLength : J.rows * d.length = first.length := width _ (mem_blocks.mpr (mem_of_block? found))
    rw [sum_termRow_of_move move fits, sum_lookedUp_of_move move found firstWidth]
    refine sum_congr rfl fun j hj => ?_
    have inside : i * d.length + j < first.length := by
      have := Nat.mul_le_mul_right d.length (show i + 1 ≤ J.rows from hi)
      rw [Nat.succ_mul] at this
      have := mem_range.mp hj
      omega
    rw [mean _ first found (fun block there => (width block there).symm.trans firstLength) _ inside]

/-! ## Steps along one coordinate -/

def unitVector (width j : ℕ) : List ℚ := (List.range width).map fun l => if l = j then 1 else 0

/-- The step that moves one coordinate of one variable, by one. -/
def unitStep (key : Key) (width j : ℕ) : Assignment ℚ := .ofList [(key, unitVector width j)]

theorem length_unitVector (width j : ℕ) : (unitVector width j).length = width := by
  rw [unitVector, List.length_map, List.length_range]

theorem sum_mul_unitVector (f : ℕ → ℚ) {width j : ℕ} (hj : j < width) :
    ∑ l ∈ range width, f l * (unitVector width j).getD l 0 = f j := by
  have entry : ∀ l ∈ range width, f l * (unitVector width j).getD l 0 = if l = j then f l else 0 := by
    intro l hl
    rw [unitVector, List.getD_eq_getElem _ _ (by simpa using hl)]
    simp
  rw [sum_congr rfl entry, sum_ite_eq', if_pos (mem_range.mpr hj)]

theorem get?_unitStep (key : Key) (width j : ℕ) (k : Key) :
    (unitStep key width j).get? k = if key = k then some (unitVector width j) else none := by
  rw [unitStep, Assignment.ofList, List.foldl_cons, List.foldl_nil, Assignment.get?_insert, Assignment.get?_empty]

section Unit

variable {key : Key} {first : List ℚ} (found : J.block? key = some first)
  (same : ∀ block ∈ J.blocks key, block.length = first.length)
include same

theorem fits_unitStep (j : ℕ) : ∀ term ∈ J.terms, J.Fits (unitStep key (J.width first) j) term := by
  intro term mem d move
  rw [get?_unitStep] at move
  by_cases here : key = term.1
  · subst here
    rw [if_pos rfl, Option.some.injEq] at move
    rw [← move, length_unitVector, width, width, same term.2 (mem_blocks.mpr mem)]
  · rw [if_neg here] at move
    cases move

include found

theorem rows_unitStep {j : ℕ} (hj : j < J.width first) (i : ℕ) :
    J.rowSum (unitStep key (J.width first) j) i =
        ((J.blocks key).map (·.getD (i * J.width first + j) 0)).sum ∧
      J.assembledRow (unitStep key (J.width first) j) i =
        (J.blocks key).length * first.getD (i * J.width first + j) 0 := by
  have move := (get?_unitStep key (J.width first) j key).trans (if_pos rfl)
  have still : ∀ k, k ≠ key → (unitStep key (J.width first) j).get? k = none := fun k other => by
    rw [get?_unitStep, if_neg other.symm]
  have fits := fits_unitStep same j
  have mem : key ∈ J.keys.toFinset := List.mem_toFinset.mpr (List.mem_map_of_mem (mem_of_block? found))
  constructor
  · rw [rowSum_by_key, sum_eq_single_of_mem key mem fun k _ other => (sum_of_still (still k other) i).1,
      sum_termRow_of_move move fits, length_unitVector]
    exact sum_mul_unitVector (fun l => ((J.blocks key).map (·.getD (i * J.width first + l) 0)).sum) hj
  · rw [assembledRow_by_key fits, sum_eq_single_of_mem key mem fun k _ other => (sum_of_still (still k other) i).2,
      sum_lookedUp_of_move move found (length_unitVector _ j), length_unitVector]
    exact sum_mul_unitVector (fun l => (J.blocks key).length * first.getD (i * J.width first + l) 0) hj

end Unit

/-- Entry `p` is in row `p / width` and column `p % width`, and the unit step along that column shows it alone. -/
theorem firstIsMean_of_agrees (agrees : ∀ δ product, J.multiply δ = .ok product → product = J.assembled δ)
    (key : Key) : J.FirstIsMean key := by
  intro first found same p inside
  have length : first.length = J.rows * J.width first := J.length_block (mem_of_block? found)
  have pos : 0 < J.width first := Nat.pos_of_ne_zero fun zero => by simp [length, zero] at inside
  have hi : p / J.width first < J.rows := Nat.div_lt_of_lt_mul (by rwa [Nat.mul_comm, ← length])
  obtain ⟨sum, copies⟩ := rows_unitStep found same (Nat.mod_lt p pos) (p / J.width first)
  rw [Nat.div_add_mod'] at sum copies
  have products := agrees _ _ (multiply_of_fits (fits_unitStep same (p % J.width first)))
  have row := List.map_inj_left.mp products _ (List.mem_range.mpr hi)
  exact sum.symm.trans (row.trans copies)

/-! ## Look-ups and products -/

/-- Products agree with the matrix that the look-ups describe, on all steps that have one, exactly if the first
block of each variable is the mean of its blocks, or these differ in length. So they do if no variable occurs twice. -/
theorem multiply_eq_assembled_iff (J : JacobianFactor ℚ) :
    ((∀ δ product, J.multiply δ = .ok product → product = J.assembled δ) ↔ ∀ key, J.FirstIsMean key) ∧
      (J.keys.Nodup → ∀ δ product, J.multiply δ = .ok product → product = J.assembled δ) := by
  have agrees : (∀ key, J.FirstIsMean key) → ∀ δ product, J.multiply δ = .ok product → product = J.assembled δ := by
    intro mean δ product ok
    obtain ⟨fits, rfl⟩ := multiply_eq_ok_iff.mp ok
    apply List.map_congr_left
    intro i mem
    exact rowSum_eq_assembledRow mean fits (List.mem_range.mp mem)
  exact ⟨⟨firstIsMean_of_agrees, agrees⟩, fun once => agrees (firstIsMean_of_nodup once)⟩

/-- One variable with two blocks: a product adds up both, the look-ups answer the first one twice. -/
theorem multiply_ne_assembled_repeated :
    ∃ J, ofTerms [(⟨1⟩, [1]), (⟨1⟩, [2])] [(0 : ℚ)] = .ok J ∧ J.multiply (.ofList [(⟨1⟩, [1])]) = .ok [3] ∧
      J.assembled (.ofList [(⟨1⟩, [1])]) = [2] :=
  ⟨_, rfl, by decide +kernel, by decide +kernel⟩

end InequalityLayer.JacobianFactor
