import InequalityLayer.Failure
import InequalityLayer.Proofs.Exact.Dense
import Mathlib

/-!
Dense evaluators that count positions. Here every entry and every row is taken at a position that is compared
with the length of its list, and a position outside is a fault; one inside a vector is a word, as the length of
the vector is. `symmetrize` averages in place, one pair of entries after the other. On a square matrix no
comparison fails and the result is the one of the evaluators without positions: `quadraticForm_eq`,
`symmetrize_eq`. Loops are handled by `foldlM_range'`, which asks for the state after each number of rounds and
for one round.
-/
namespace InequalityLayer.ByPosition
set_option autoImplicit false

variable {α : Type}

/-! ## Positions in a list -/

def entryAt (v : List α) (i : ℕ) : Except Fault α :=
  if inside : i < v.length then .ok v[i] else .error (.outOfBounds v.length i)

/-- The entries from position `first` on, up to but without position `last`. -/
def segment (v : List α) (first last : ℕ) : Except Fault (List α) :=
  if first ≤ last ∧ last ≤ v.length then .ok ((v.drop first).take (last - first))
  else .error (.outOfBounds v.length last)

def replaceAt (v : List α) (i : ℕ) (a : α) : Except Fault (List α) :=
  if i < v.length then .ok (v.set i a) else .error (.outOfBounds v.length i)

theorem entryAt_of_lt {v : List α} {i : ℕ} (inside : i < v.length) (x : α) : entryAt v i = .ok (v.getD i x) := by
  rw [entryAt, dif_pos inside, List.getD_eq_getElem _ _ inside]

theorem replaceAt_of_lt {v : List α} {i : ℕ} (inside : i < v.length) (a : α) :
    replaceAt v i a = .ok (v.set i a) := by
  rw [replaceAt, if_pos inside]

theorem segment_of_le {v : List α} {first last : ℕ} (ordered : first ≤ last) (inside : last ≤ v.length) :
    segment v first last = .ok ((v.drop first).take (last - first)) := by
  rw [segment, if_pos ⟨ordered, inside⟩]

theorem segment_row {entries : List α} {rows width i : ℕ} (size : entries.length = rows * width)
    (below : i < rows) : segment entries (i * width) ((i + 1) * width) = .ok (row entries width i) := by
  have inside : (i + 1) * width ≤ entries.length := size ▸ Nat.mul_le_mul_right width below
  rw [segment_of_le (Nat.mul_le_mul_right width i.le_succ) inside, Nat.succ_mul, Nat.add_sub_cancel_left]
  rfl

/-! ## Loops -/

/-- A loop whose state after `i` rounds is known for each `i` makes no fault if no single round does. -/
theorem foldlM_range' {ε β : Type} (state : ℕ → β) {body : β → ℕ → Except ε β} (start count : ℕ)
    (round : ∀ i, start ≤ i → i < start + count → body (state i) i = .ok (state (i + 1))) :
    (List.range' start count).foldlM body (state start) = .ok (state (start + count)) := by
  induction count generalizing start with
  | zero => rfl
  | succ count ih =>
    rw [List.range'_succ, List.foldlM_cons, round start le_rfl (by omega)]
    have later := ih (start + 1) fun i above below => round i (by omega) (by omega)
    rw [show start + (count + 1) = start + 1 + count by omega]
    exact later

theorem foldlM_range {ε β : Type} (state : ℕ → β) {body : β → ℕ → Except ε β} (count : ℕ)
    (round : ∀ i < count, body (state i) i = .ok (state (i + 1))) :
    (List.range count).foldlM body (state 0) = .ok (state count) := by
  have run := foldlM_range' state 0 count fun i _ below => round i (by omega)
  rwa [← List.range_eq_range', Nat.zero_add] at run

/-! ## Square matrices -/

section Square

variable {n i k : ℕ}

theorem position_lt (hi : i < n) (hk : k < n) : i * n + k < n * n := by
  have row := Nat.mul_le_mul_right n (show i + 1 ≤ n from hi)
  rw [Nat.succ_mul] at row
  omega

theorem position_inj {j l : ℕ} (hk : k < n) (hl : l < n) : i * n + k = j * n + l ↔ i = j ∧ k = l := by
  constructor
  · intro same
    have pos : 0 < n := by omega
    have columns : k = l := by
      have := congrArg (· % n) same
      simpa [Nat.mul_add_mod', Nat.mod_eq_of_lt hk, Nat.mod_eq_of_lt hl] using this
    subst columns
    exact ⟨Nat.eq_of_mul_eq_mul_right pos (Nat.add_right_cancel same), rfl⟩
  · rintro ⟨rfl, rfl⟩
    rfl

theorem tabulate_getD {a : List α} (square : a.length = n * n) (x : α) :
    tabulate n n (fun i k => a.getD (i * n + k) x) = a := by
  apply List.ext_getElem ((length_tabulate n n _).trans square.symm)
  intro p inside _
  rw [length_tabulate] at inside
  have pos : 0 < n := Nat.pos_of_mul_pos_left (Nat.zero_lt_of_lt inside)
  have hi : p / n < n := Nat.div_lt_of_lt_mul inside
  have split : p / n * n + p % n = p := Nat.div_add_mod' p n
  have entry := getD_tabulate (fun i k => a.getD (i * n + k) x) hi (Nat.mod_lt p pos) x
  rw [split] at entry
  rwa [List.getD_eq_getElem _ _ (by rwa [length_tabulate]), List.getD_eq_getElem _ _ (by omega)] at entry

theorem entryAt_tabulate (f : ℕ → ℕ → α) (hi : i < n) (hk : k < n) :
    entryAt (tabulate n n f) (i * n + k) = .ok (f i k) := by
  rw [entryAt_of_lt (by rw [length_tabulate]; exact position_lt hi hk) (f i k), getD_tabulate f hi hk]

theorem replaceAt_tabulate (f : ℕ → ℕ → α) (hi : i < n) (hk : k < n) (a : α) :
    replaceAt (tabulate n n f) (i * n + k) a =
      .ok (tabulate n n fun j l => if i = j ∧ k = l then a else f j l) := by
  have inside : i * n + k < (tabulate n n f).length := by
    rw [length_tabulate]
    exact position_lt hi hk
  rw [replaceAt_of_lt inside, ← tabulate_getD (n := n) (a := (tabulate n n f).set _ a) (by simp [length_tabulate]) a]
  congr 1
  apply tabulate_congr
  intro j hj l hl
  rw [List.getD_eq_getElem?_getD, List.getElem?_set, if_pos inside]
  simp only [position_inj hk hl]
  by_cases here : i = j ∧ k = l
  · simp [here]
  · rw [if_neg here, if_neg here, ← List.getD_eq_getElem?_getD, getD_tabulate f hj hl]

end Square

/-! ## Quadratic forms -/

theorem take_succ_zipIdx (x : List α) {m : ℕ} (below : m < x.length) :
    x.zipIdx.take (m + 1) = x.zipIdx.take m ++ [(x[m], m)] := by
  rw [List.take_add_one, List.getElem?_eq_getElem (by simpa using below)]
  simp

variable [Scalar α]

/-- Row `i` of `A` added to the value, unless its coordinate is zero. -/
def addRow (a x : List α) (n : ℕ) (s : α) (i : ℕ) : Except Fault α := do
  let coordinate ← entryAt x i
  if Scalar.agrees coordinate 0.0 then return s
  let entries ← segment a (i * n) ((i + 1) * n)
  return s + coordinate * dot entries x

/-- The value `xᵀ A x`, where `A` has `n` rows and columns. -/
def quadraticForm (a x : List α) (n : ℕ) : Except Fault α := (List.range n).foldlM (addRow a x n) 0.0

/-- The value over the first coordinates, `m` of them. -/
def formTo (a x : List α) (m : ℕ) : α :=
  (x.zipIdx.take m).foldl (fun s p =>
    if Scalar.agrees p.1 0.0 then s else s + p.1 * dot (row a x.length p.2) x) 0.0

theorem formTo_length (a x : List α) : formTo a x x.length = InequalityLayer.quadraticForm a x := by
  rw [formTo, List.take_of_length_le (by rw [List.length_zipIdx])]
  rfl

section Form

variable {a x : List α}

theorem formTo_succ {m : ℕ} (below : m < x.length) :
    formTo a x (m + 1) =
      if Scalar.agrees x[m] 0.0 then formTo a x m else formTo a x m + x[m] * dot (row a x.length m) x := by
  unfold formTo
  rw [take_succ_zipIdx x below, List.foldl_concat]

theorem addRow_of_lt {n i : ℕ} (square : a.length = n * n) (below : i < n) (inside : i < x.length) (s : α) :
    addRow a x n s i = .ok (if Scalar.agrees x[i] 0.0 then s else s + x[i] * dot (row a n i) x) := by
  unfold addRow
  rw [entryAt, dif_pos inside, segment_row square below]
  by_cases zero : Scalar.agrees x[i] 0.0 = true <;> simp [zero, bind, Except.bind, pure, Except.pure]

variable (square : a.length = x.length * x.length)
include square

theorem addRow_formTo {i : ℕ} (below : i < x.length) :
    addRow a x x.length (formTo a x i) i = .ok (formTo a x (i + 1)) := by
  rw [addRow_of_lt square below below, formTo_succ below]

theorem quadraticForm_eq : quadraticForm a x x.length = .ok (InequalityLayer.quadraticForm a x) := by
  have run := foldlM_range (formTo a x) x.length fun i below => addRow_formTo square below
  rwa [formTo_length] at run

end Form

/-! ## Averaging in place -/

/-- The two entries of one pair read, and their mean written to both. -/
def average (n i : ℕ) (a : List α) (k : ℕ) : Except Fault (List α) := do
  let upper ← entryAt a (i * n + k)
  let lower ← entryAt a (k * n + i)
  let mean := 0.5 * (upper + lower)
  let a ← replaceAt a (i * n + k) mean
  replaceAt a (k * n + i) mean

/-- The pairs above the diagonal in row `i`. -/
def averageRow (n : ℕ) (a : List α) (i : ℕ) : Except Fault (List α) :=
  (List.range' (i + 1) (n - (i + 1))).foldlM (average n i) a

def symmetrize (a : List α) (n : ℕ) : Except Fault (List α) := (List.range n).foldlM (averageRow n) a

/-- The pair is among those visited before the pair `(i, k)`. -/
def Before (i k low high : ℕ) : Prop := low < i ∨ low = i ∧ high < k

instance (i k low high : ℕ) : Decidable (Before i k low high) := inferInstanceAs (Decidable (_ ∨ _))

/-- Entries of a matrix of which the pairs before `(i, k)` have been averaged. -/
def averagedTo (f : ℕ → ℕ → α) (i k row column : ℕ) : α :=
  if row ≠ column ∧ Before i k (min row column) (max row column) then
    0.5 * (f (min row column) (max row column) + f (max row column) (min row column))
  else f row column

variable {n i k : ℕ} (f : ℕ → ℕ → α)

/-- Once its mean is in both places, the pair `(i, k)` is among those that have been averaged. -/
theorem averagedTo_written (above : i < k) (row column : ℕ) :
    (if k = row ∧ i = column then 0.5 * (averagedTo f i k i k + averagedTo f i k k i)
      else if i = row ∧ k = column then 0.5 * (averagedTo f i k i k + averagedTo f i k k i)
      else averagedTo f i k row column) = averagedTo f i (k + 1) row column := by
  have fresh : averagedTo f i k i k = f i k ∧ averagedTo f i k k i = f k i := by
    simp [averagedTo, Before, above.le]
  rw [fresh.1, fresh.2]
  by_cases lower : k = row ∧ i = column
  · obtain ⟨rfl, rfl⟩ := lower
    simp [averagedTo, Before, above.le, above.ne']
  by_cases upper : i = row ∧ k = column
  · obtain ⟨rfl, rfl⟩ := upper
    simp [averagedTo, Before, above.le, above.ne, above.ne']
  rw [if_neg lower, if_neg upper]
  unfold averagedTo Before
  congr 1
  apply propext
  omega

theorem average_tabulate (above : i < k) (below : k < n) :
    average n i (tabulate n n (averagedTo f i k)) k = .ok (tabulate n n (averagedTo f i (k + 1))) := by
  have hi : i < n := above.trans below
  unfold average
  simp only [entryAt_tabulate _ hi below, entryAt_tabulate _ below hi, replaceAt_tabulate _ hi below,
    replaceAt_tabulate _ below hi, bind, Except.bind]
  congr 1
  exact tabulate_congr fun row _ column _ => averagedTo_written f above row column

/-- With the last pair of row `i` visited, the next one is the first of row `i + 1`. -/
theorem averagedTo_next :
    tabulate n n (averagedTo f i n) = tabulate n n (averagedTo f (i + 1) (i + 1 + 1)) := by
  apply tabulate_congr
  intro j hj l hl
  unfold averagedTo Before
  congr 1
  apply propext
  omega

theorem averageRow_tabulate (hi : i < n) :
    averageRow n (tabulate n n (averagedTo f i (i + 1))) i =
      .ok (tabulate n n (averagedTo f (i + 1) (i + 1 + 1))) := by
  have run := foldlM_range' (fun k => tabulate n n (averagedTo f i k)) (i + 1) (n - (i + 1))
    fun k above below => average_tabulate f above (by omega)
  rwa [show i + 1 + (n - (i + 1)) = n by omega, averagedTo_next f] at run

theorem symmetrize_eq {a : List α} (square : a.length = n * n) :
    symmetrize a n = .ok (InequalityLayer.symmetrize a n) := by
  let f := entryOf a n
  have start : tabulate n n (averagedTo f 0 1) = a := by
    rw [← tabulate_getD square 0.0]
    apply tabulate_congr
    intro i hi k hk
    have none : ¬ (i ≠ k ∧ Before 0 1 (min i k) (max i k)) := by
      unfold Before
      omega
    rw [averagedTo, if_neg none]
    rfl
  have finish : tabulate n n (averagedTo f n (n + 1)) = InequalityLayer.symmetrize a n := by
    apply tabulate_congr
    intro i hi k hk
    have all : (i ≠ k ∧ Before n (n + 1) (min i k) (max i k)) ↔ ¬ i = k := by
      unfold Before
      omega
    rw [averagedTo, if_congr all rfl rfl, ite_not]
  have run := foldlM_range (fun i => tabulate n n (averagedTo f i (i + 1))) n fun i hi => averageRow_tabulate f hi
  rwa [start, finish] at run

end InequalityLayer.ByPosition
