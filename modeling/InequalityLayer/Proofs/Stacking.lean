import InequalityLayer.Layout
import Mathlib

/-!
Stacked vectors. Both ways of stacking go through the variables of a layout one after the other
(`stackPoint_cons`, `stackStep_cons`) and give a vector of the layout's dimension. `Assignment.shift` moves
a point by a step; over the rationals, where an added zero changes nothing, the stacked point then moves
by the stacked step (`stackPoint_shift`).
-/
namespace InequalityLayer
set_option autoImplicit false

variable {α : Type}

namespace Assignment

/-- The point moved by a step; variables that the step does not name stay where they are. -/
def shift [Add α] (x δ : Assignment α) : Assignment α :=
  ⟨x.map.map fun key v => match δ.get? key with
    | some d => List.zipWith (· + ·) v d
    | none => v⟩

theorem get?_shift [Add α] (x δ : Assignment α) (key : Key) :
    (x.shift δ).get? key = (x.get? key).map fun v => match δ.get? key with
      | some d => List.zipWith (· + ·) v d
      | none => v := by
  unfold get? shift
  exact Std.TreeMap.getElem?_map

/-- The step has coordinates for a variable as often as the point has. -/
def Fits (x δ : Assignment α) (key : Key) : Prop :=
  ∀ v d, x.get? key = some v → δ.get? key = some d → d.length = v.length

end Assignment

namespace Layout

variable {key : Key} {dim : ℕ} {L : Layout} {x δ : Assignment α} {v : List α}

/-! ## One variable after the other -/

theorem sized_eq_ok_iff (vector : List α) :
    sized key dim vector = .ok v ↔ vector.length = dim ∧ v = vector := by
  unfold sized
  by_cases h : vector.length = dim <;> simp [h, eq_comm]

theorem stackPoint_cons (entry : Key × ℕ) (L : Layout) (x : Assignment α) :
    stackPoint (entry :: L) x = do
      let first ← pointPart x entry
      let others ← L.stackPoint x
      return first ++ others := by
  unfold stackPoint
  rw [List.mapM_cons]
  cases pointPart x entry with
  | error e => rfl
  | ok first => cases List.mapM (pointPart x) L <;> rfl

theorem stackStep_cons [Scalar α] (entry : Key × ℕ) (L : Layout) (δ : Assignment α) :
    stackStep (entry :: L) δ = do
      let first ← stepPart δ entry
      let others ← L.stackStep δ
      return first ++ others := by
  unfold stackStep
  rw [List.mapM_cons]
  cases stepPart δ entry with
  | error e => rfl
  | ok first => cases List.mapM (stepPart δ) L <;> rfl

theorem stackPoint_cons_eq_ok_iff :
    stackPoint ((key, dim) :: L) x = .ok v ↔
      ∃ first others, x.get? key = some first ∧ first.length = dim ∧ L.stackPoint x = .ok others ∧
        v = first ++ others := by
  rw [stackPoint_cons, pointPart]
  cases x.get? key with
  | none => simp [bind, Except.bind]
  | some first =>
    by_cases length : first.length = dim
    · cases L.stackPoint x <;> simp [sized, length, bind, Except.bind, pure, Except.pure, eq_comm]
    · simp [sized, length, bind, Except.bind]

theorem length_stackPoint (ok : L.stackPoint x = .ok v) : v.length = L.dim := by
  induction L generalizing v with
  | nil =>
    cases ok
    rfl
  | cons entry L ih =>
    obtain ⟨key, dim⟩ := entry
    obtain ⟨first, others, _, rfl, rest, rfl⟩ := stackPoint_cons_eq_ok_iff.mp ok
    rw [List.length_append, ih rest]
    rfl

theorem keys_split (L : Layout) (v : List α) : (L.split v).map Prod.fst = L.keys := by
  induction L generalizing v with
  | nil => rfl
  | cons entry L ih =>
    obtain ⟨key, dim⟩ := entry
    rw [split, List.map_cons, ih]
    rfl

section Step

variable [Scalar α] {d : List α}

theorem length_stepPart (ok : stepPart δ (key, dim) = .ok d) : d.length = dim := by
  unfold stepPart at ok
  cases move : δ.get? key with
  | none =>
    rw [move] at ok
    cases ok
    exact List.length_replicate
  | some e =>
    rw [move] at ok
    obtain ⟨length, rfl⟩ := (sized_eq_ok_iff e).mp ok
    exact length

theorem stackStep_cons_eq_ok_iff :
    stackStep ((key, dim) :: L) δ = .ok d ↔
      ∃ first others, stepPart δ (key, dim) = .ok first ∧ L.stackStep δ = .ok others ∧
        d = first ++ others := by
  rw [stackStep_cons]
  cases stepPart δ (key, dim) with
  | error e => simp [bind, Except.bind]
  | ok first => cases L.stackStep δ <;> simp [bind, Except.bind, pure, Except.pure, eq_comm]

theorem length_stackStep (ok : L.stackStep δ = .ok d) : d.length = L.dim := by
  induction L generalizing d with
  | nil =>
    cases ok
    rfl
  | cons entry L ih =>
    obtain ⟨first, others, part, rest, rfl⟩ := stackStep_cons_eq_ok_iff.mp ok
    rw [List.length_append, length_stepPart part, ih rest]
    rfl

end Step

/-! ## A shifted point -/

theorem zipWith_add_zeros (v : List ℚ) : List.zipWith (· + ·) v (List.replicate v.length 0) = v := by
  induction v with
  | nil => rfl
  | cons a v ih => rw [List.length_cons, List.replicate_succ, List.zipWith_cons_cons, ih, add_zero]

theorem stepPart_shift {x δ : Assignment ℚ} {first : List ℚ} (here : x.get? key = some first)
    (fits : x.Fits δ key) :
    ∃ e, stepPart δ (key, first.length) = .ok e ∧
      (x.shift δ).get? key = some (List.zipWith (· + ·) first e) := by
  rw [Assignment.get?_shift, here, Option.map_some, stepPart]
  cases move : δ.get? key with
  | none =>
    refine ⟨List.replicate first.length 0.0, rfl, ?_⟩
    rw [zero_rat, zipWith_add_zeros]
  | some e =>
    have same : e.length = first.length := fits first e here move
    exact ⟨e, (sized_eq_ok_iff e).mpr ⟨same, rfl⟩, rfl⟩

theorem stackPoint_shift {x δ : Assignment ℚ} {v : List ℚ} (point : L.stackPoint x = .ok v)
    (fits : ∀ key ∈ L.keys, x.Fits δ key) :
    ∃ d, L.stackStep δ = .ok d ∧ L.stackPoint (x.shift δ) = .ok (List.zipWith (· + ·) v d) := by
  induction L generalizing v with
  | nil =>
    cases point
    exact ⟨[], rfl, rfl⟩
  | cons entry L ih =>
    obtain ⟨key, dim⟩ := entry
    obtain ⟨first, others, here, rfl, rest, rfl⟩ := stackPoint_cons_eq_ok_iff.mp point
    obtain ⟨e, part, there⟩ := stepPart_shift here (fits key List.mem_cons_self)
    obtain ⟨d, step, moved⟩ := ih rest fun k mem => fits k (List.mem_cons_of_mem key mem)
    have length := length_stepPart part
    refine ⟨e ++ d, stackStep_cons_eq_ok_iff.mpr ⟨e, d, part, step, rfl⟩,
      stackPoint_cons_eq_ok_iff.mpr ⟨_, _, there, ?_, moved, ?_⟩⟩
    · rw [List.length_zipWith, length, Nat.min_self]
    · rw [List.zipWith_append length.symm]

end Layout

end InequalityLayer
