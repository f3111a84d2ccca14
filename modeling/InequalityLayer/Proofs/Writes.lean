import InequalityLayer.Assignment
import InequalityLayer.Proofs.Key.Order
import Mathlib

/-!
Assignments as the last of their writes. A list of writes, collected or inserted one by one, leaves at each key the last
vector written there (`get?_insertAll`), and the entries in increasing order are known by what is read at each key
(`toList_eq_iff`). Collecting may as well sort the writes, those of one key staying in their order, and keep the last of
each run of equal keys (`lastOfRuns_sorted`). Main statement: `written_isLastOf`.
-/
namespace InequalityLayer.Assignment
set_option autoImplicit false

variable {α : Type} {a b : Assignment α}

/-! ## Entries -/

theorem mem_toList {k : Key} {v : List α} : (k, v) ∈ a.toList ↔ a.get? k = some v :=
  Std.TreeMap.mem_toList_iff_getElem?_eq_some

theorem pairwise_toList (a : Assignment α) : a.toList.Pairwise fun e f => e.1.raw < f.1.raw := by
  have ordered : a.toList.Pairwise fun e f => compare e.1 f.1 = .lt := Std.TreeMap.ordered_keys_toList
  exact ordered.imp fun less => Key.compare_eq_lt_iff_raw_lt.mp less

theorem toList_eq_iff : a.toList = b.toList ↔ ∀ k, a.get? k = b.get? k := by
  constructor
  · intro same k
    ext v
    rw [← mem_toList, same, mem_toList]
  · intro same
    refine Key.eq_of_increasing a.pairwise_toList b.pairwise_toList fun ⟨k, v⟩ => ?_
    rw [mem_toList, mem_toList, same]

/-! ## Writes -/

/-- The writes of one key, in their order. -/
def writesOf (k : Key) (writes : List (Key × List α)) : List (Key × List α) := writes.filter fun w => w.1 = k

def lastWrite? (k : Key) (writes : List (Key × List α)) : Option (List α) := (writesOf k writes).getLast?.map Prod.snd

def insertAll (a : Assignment α) (writes : List (Key × List α)) : Assignment α :=
  writes.foldl (fun a w => a.insert w.1 w.2) a

variable {k : Key} {w : Key × List α} {writes others : List (Key × List α)}

theorem lastWrite?_cons (k : Key) (w : Key × List α) (writes : List (Key × List α)) :
    lastWrite? k (w :: writes) = (lastWrite? k writes).or (if w.1 = k then some w.2 else none) := by
  unfold lastWrite? writesOf
  by_cases here : w.1 = k
  · rw [List.filter_cons_of_pos (by simpa using here), List.getLast?_cons, if_pos here]
    cases (writes.filter fun w => w.1 = k).getLast? <;> rfl
  · rw [List.filter_cons_of_neg (by simpa using here), if_neg here, Option.or_none]

theorem isSome_lastWrite? : (lastWrite? k writes).isSome ↔ k ∈ writes.map Prod.fst := by
  induction writes with
  | nil => simp [lastWrite?, writesOf]
  | cons w writes ih =>
    rw [lastWrite?_cons, Option.isSome_or, Bool.or_eq_true, ih, List.map_cons, List.mem_cons, eq_comm (a := k)]
    by_cases here : w.1 = k <;> simp [here]

theorem get?_insertAll (a : Assignment α) (writes : List (Key × List α)) (k : Key) :
    (a.insertAll writes).get? k = (lastWrite? k writes).or (a.get? k) := by
  induction writes generalizing a with
  | nil => rfl
  | cons w writes ih =>
    rw [insertAll, List.foldl_cons, ← insertAll, ih, get?_insert, lastWrite?_cons]
    by_cases here : w.1 = k <;> cases lastWrite? k writes <;> simp [here]

theorem get?_ofList (writes : List (Key × List α)) (k : Key) : (ofList writes).get? k = lastWrite? k writes := by
  have collected : ofList writes = insertAll ∅ writes := rfl
  rw [collected, get?_insertAll, get?_empty, Option.or_none]

theorem insertAll_ofList (pairs inserts : List (Key × List α)) :
    (ofList pairs).insertAll inserts = ofList (pairs ++ inserts) :=
  List.foldl_append.symm

/-! ## Collecting all at once -/

def keyLe (e f : Key × List α) : Bool := e.1.raw ≤ f.1.raw

theorem keyLe_trans (d e f : Key × List α) (first : keyLe d e = true) (second : keyLe e f = true) : keyLe d f = true :=
  decide_eq_true (UInt64.le_trans (of_decide_eq_true first) (of_decide_eq_true second))

theorem keyLe_total (e f : Key × List α) : (keyLe e f || keyLe f e) = true := by
  rw [Bool.or_eq_true]
  exact (UInt64.le_total e.1.raw f.1.raw).imp decide_eq_true decide_eq_true

/-- The last entry of each run of entries with one key. -/
def lastOfRuns : List (Key × List α) → List (Key × List α)
  | [] => []
  | w :: writes =>
    if writes.head?.any fun next => next.1 = w.1 then lastOfRuns writes else w :: lastOfRuns writes

/-- Writes sorted by key, those of one key in their order, and of each key the last one kept. -/
def collectSorted (writes : List (Key × List α)) : List (Key × List α) := lastOfRuns (writes.mergeSort keyLe)

theorem mem_of_mem_lastOfRuns (kept : w ∈ lastOfRuns writes) : w ∈ writes := by
  induction writes with
  | nil => exact kept
  | cons first writes ih =>
    unfold lastOfRuns at kept
    split at kept
    · exact List.mem_cons_of_mem _ (ih kept)
    · obtain rfl | later := List.mem_cons.mp kept
      · exact List.mem_cons_self
      · exact List.mem_cons_of_mem _ (ih later)

/-- In sorted writes a further write of the first key comes next. -/
theorem head?_any_iff (sorted : (w :: writes).Pairwise fun e f => e.1.raw ≤ f.1.raw) :
    (writes.head?.any fun next => next.1 = w.1) = true ↔ w.1 ∈ writes.map Prod.fst := by
  cases writes with
  | nil => simp
  | cons next writes =>
    obtain ⟨after, rest⟩ := List.pairwise_cons.mp sorted
    obtain ⟨least, _⟩ := List.pairwise_cons.mp rest
    rw [List.head?_cons, Option.any_some, decide_eq_true_eq, List.map_cons, List.mem_cons, eq_comm]
    refine ⟨.inl, ?_⟩
    rintro (here | later)
    · exact here
    · obtain ⟨e, mem, same⟩ := List.mem_map.mp later
      exact Key.eq_of_raw_le (after next List.mem_cons_self) (same ▸ least e mem)

theorem lastOfRuns_sorted (sorted : writes.Pairwise fun e f => e.1.raw ≤ f.1.raw) :
    ((lastOfRuns writes).Pairwise fun e f => e.1.raw < f.1.raw) ∧
    ∀ k v, (k, v) ∈ lastOfRuns writes ↔ lastWrite? k writes = some v := by
  induction writes with
  | nil => exact ⟨.nil, fun k v => iff_of_false List.not_mem_nil nofun⟩
  | cons w writes ih =>
    obtain ⟨after, rest⟩ := List.pairwise_cons.mp sorted
    obtain ⟨increasing, members⟩ := ih rest
    unfold lastOfRuns
    by_cases again : w.1 ∈ writes.map Prod.fst
    · rw [if_pos ((head?_any_iff sorted).mpr again)]
      refine ⟨increasing, fun k v => ?_⟩
      rw [members, lastWrite?_cons]
      by_cases here : w.1 = k
      · obtain ⟨u, later⟩ := Option.isSome_iff_exists.mp (isSome_lastWrite?.mpr (here ▸ again))
        rw [later, Option.some_or]
      · rw [if_neg here, Option.or_none]
    · rw [if_neg (mt (head?_any_iff sorted).mp again)]
      constructor
      · refine List.pairwise_cons.mpr ⟨fun e kept => ?_, increasing⟩
        have mem := mem_of_mem_lastOfRuns kept
        exact Key.raw_lt_of_ne (after e mem) fun same => again (same ▸ List.mem_map_of_mem mem)
      · intro k v
        rw [List.mem_cons, members, lastWrite?_cons]
        by_cases here : w.1 = k
        · subst here
          have never : lastWrite? w.1 writes = none := by
            rw [← Option.not_isSome_iff_eq_none, isSome_lastWrite?]
            exact again
          simp [never, Prod.ext_iff, eq_comm]
        · simp [here, Prod.ext_iff, Ne.symm here]

theorem pairwise_mergeSort (writes : List (Key × List α)) :
    (writes.mergeSort keyLe).Pairwise fun e f => e.1.raw ≤ f.1.raw :=
  (List.pairwise_mergeSort keyLe_trans keyLe_total writes).imp of_decide_eq_true

/-- Sorting leaves the writes of one key in their order. -/
theorem writesOf_mergeSort (k : Key) (writes : List (Key × List α)) :
    writesOf k (writes.mergeSort keyLe) = writesOf k writes := by
  have alike : (writesOf k writes).Pairwise fun e f => keyLe e f = true := by
    refine List.pairwise_iff_forall_sublist.mpr fun {e f} pair => ?_
    have here := List.of_mem_filter (pair.subset List.mem_cons_self)
    have there := List.of_mem_filter (pair.subset (List.mem_cons_of_mem e List.mem_cons_self))
    simp only [decide_eq_true_eq] at here there
    rw [keyLe, here, there]
    exact decide_eq_true (UInt64.le_refl k.raw)
  have kept : (writesOf k writes).Sublist (writes.mergeSort keyLe) :=
    List.sublist_mergeSort keyLe_trans keyLe_total alike List.filter_sublist
  have filtered : (writesOf k writes).Sublist (writesOf k (writes.mergeSort keyLe)) := by
    have twice := kept.filter fun w => w.1 = k
    simpa only [writesOf, List.filter_filter, Bool.and_self] using twice
  have perm : (writesOf k (writes.mergeSort keyLe)).Perm (writesOf k writes) := (List.mergeSort_perm writes keyLe).filter _
  exact (filtered.eq_of_length perm.length_eq.symm).symm

theorem collectSorted_eq (writes : List (Key × List α)) : collectSorted writes = (ofList writes).toList := by
  obtain ⟨increasing, members⟩ := lastOfRuns_sorted (pairwise_mergeSort writes)
  refine Key.eq_of_increasing increasing (ofList writes).pairwise_toList fun ⟨k, v⟩ => ?_
  rw [collectSorted, members, mem_toList, get?_ofList, lastWrite?, writesOf_mergeSort, lastWrite?]

/-! ## The last of all writes -/

/-- What an assignment answers if it holds the last vector written to each key. -/
structure IsLastOf (a : Assignment α) (writes : List (Key × List α)) : Prop where
  get?_eq : ∀ k, a.get? k = lastWrite? k writes
  contains_eq : ∀ k, a.contains k = (a.get? k).isSome
  scalar?_eq : ∀ k, a.scalar? k = (lastWrite? k writes).bind List.head?
  increasing : a.toList.Pairwise fun e f => e.1.raw < f.1.raw
  mem_toList : ∀ k v, (k, v) ∈ a.toList ↔ lastWrite? k writes = some v
  size_eq : a.size = (writes.map Prod.fst).dedup.length

theorem size_ofList (writes : List (Key × List α)) : (ofList writes).size = (writes.map Prod.fst).dedup.length := by
  have distinct : ((ofList writes).toList.map Prod.fst).Nodup := by
    refine List.pairwise_map.mpr ((ofList writes).pairwise_toList.imp fun {e f} less same => ?_)
    exact UInt64.lt_irrefl f.1.raw (same ▸ less)
  have same (k : Key) : k ∈ (ofList writes).toList.map Prod.fst ↔ k ∈ (writes.map Prod.fst).dedup := by
    have written : k ∈ writes.map Prod.fst ↔ ∃ v, (ofList writes).get? k = some v := by
      rw [get?_ofList, ← Option.isSome_iff_exists, isSome_lastWrite?]
    rw [List.mem_dedup, written, List.mem_map]
    constructor
    · rintro ⟨⟨k, v⟩, mem, rfl⟩
      exact ⟨v, mem_toList.mp mem⟩
    · rintro ⟨v, read⟩
      exact ⟨(k, v), mem_toList.mpr read, rfl⟩
  have perm := (List.perm_ext_iff_of_nodup distinct (List.nodup_dedup _)).mpr same
  rw [← perm.length_eq, List.length_map]
  exact Std.TreeMap.length_toList.symm

theorem isLastOf_ofList (writes : List (Key × List α)) : (ofList writes).IsLastOf writes where
  get?_eq := get?_ofList writes
  contains_eq := contains_eq_isSome _
  scalar?_eq k := by rw [scalar?, get?_ofList]
  increasing := pairwise_toList _
  mem_toList k v := by rw [Assignment.mem_toList, get?_ofList]
  size_eq := size_ofList writes

/-- The same writes in another order, in which those of each key have not changed places. -/
def SameOrder (writes others : List (Key × List α)) : Prop := ∀ k, writesOf k writes = writesOf k others

/-- An assignment that is collected and then added to holds the last of all writes. Collecting is sorting by key without
changing places among the writes of one key and keeping the last of each key. Assignments that answer alike at every key
list the same entries, so writes of different keys may change places. -/
theorem written_isLastOf (collected inserts : List (Key × List α)) :
    ((ofList collected).insertAll inserts).IsLastOf (collected ++ inserts) ∧
    (ofList collected).toList = collectSorted collected ∧
    (∀ a b : Assignment α, a.toList = b.toList ↔ ∀ k, a.get? k = b.get? k) ∧
    ∀ others further : List (Key × List α), SameOrder (others ++ further) (collected ++ inserts) →
      ((ofList others).insertAll further).toList = ((ofList collected).insertAll inserts).toList := by
  refine ⟨?_, (collectSorted_eq collected).symm, fun a b => toList_eq_iff, fun others further same => ?_⟩
  · rw [insertAll_ofList]
    exact isLastOf_ofList _
  · rw [toList_eq_iff, insertAll_ofList, insertAll_ofList]
    intro k
    rw [get?_ofList, get?_ofList, lastWrite?, lastWrite?, same k]

/-- One key collected twice, one written again later, and one that comes late without components. -/
def overwritten : Assignment ℚ := (ofList [(⟨5⟩, [1]), (⟨2⟩, []), (⟨5⟩, [3])]).insertAll [(⟨2⟩, [4, 5]), (⟨9⟩, [])]

theorem written_isLastOf_overwritten :
    overwritten.get? ⟨5⟩ = some [3] ∧ overwritten.contains ⟨7⟩ = false ∧ overwritten.scalar? ⟨9⟩ = none ∧
    overwritten.size = 3 ∧
    ((ofList [(⟨9⟩, []), (⟨5⟩, [1]), (⟨5⟩, [3])]).insertAll [(⟨2⟩, []), (⟨2⟩, [4, 5])]).toList = overwritten.toList := by
  obtain ⟨last, _, _, reordered⟩ :=
    written_isLastOf [(⟨5⟩, [(1 : ℚ)]), (⟨2⟩, []), (⟨5⟩, [3])] [(⟨2⟩, [4, 5]), (⟨9⟩, [])]
  refine ⟨last.get?_eq ⟨5⟩, ?_, last.scalar?_eq ⟨9⟩, last.size_eq, reordered _ _ fun k => ?_⟩
  · have read := last.contains_eq ⟨7⟩
    rw [last.get?_eq] at read
    exact read
  · obtain rfl | two := eq_or_ne ⟨2⟩ k
    · rfl
    obtain rfl | five := eq_or_ne ⟨5⟩ k
    · rfl
    simp [writesOf, List.filter_cons, two, five]

end InequalityLayer.Assignment
