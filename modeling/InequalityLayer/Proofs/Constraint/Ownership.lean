import InequalityLayer.Constraint.Set
import Mathlib

/-!
Ownership of dual keys. `Reachable` are the sets that additions build from the empty one. What every
addition keeps: the keys in use are the dual keys of the list (`Reachable.mem_owned`) and no two
constraints share one (`Reachable.nodup_dualKeys`). So a dual key leads back to the position of its
constraint (`Reachable.indexOf?_dualKey`).
-/
namespace InequalityLayer.ConstraintSet
set_option autoImplicit false

variable {α : Type} {s : ConstraintSet α}

/-- The sets that additions, accepted or not, build from the empty one. -/
inductive Reachable : ConstraintSet α → Prop
  | empty : Reachable {}
  | add {s : ConstraintSet α} (c : Constraint α) : Reachable s → Reachable (s.add c).2

theorem reachable_ofList (constraints : List (Constraint α)) : (ofList constraints).Reachable := by
  have extend : ∀ (cs : List (Constraint α)) (s : ConstraintSet α), s.Reachable →
      (cs.foldl (fun s c => (s.add c).2) s).Reachable := by
    intro cs
    induction cs with
    | nil => exact fun _ reach => reach
    | cons c cs ih => exact fun s reach => ih _ (reach.add c)
  exact extend constraints {} .empty

/-! ## What an addition keeps -/

theorem Reachable.mem_owned (h : s.Reachable) (k : Key) : k ∈ s.owned ↔ k ∈ s.dualKeys := by
  induction h generalizing k with
  | empty => simp [dualKeys]
  | add c _ ih => exact mem_owned_add _ c ih k

theorem nodup_dualKeys_add (s : ConstraintSet α) (c : Constraint α)
    (owned : ∀ k, k ∈ s.owned ↔ k ∈ s.dualKeys) (h : s.dualKeys.Nodup) : (s.add c).2.dualKeys.Nodup := by
  cases taken : s.owned.contains c.dualKey with
  | true =>
    rw [add_owned s c taken]
    exact h
  | false =>
    have fresh : c.dualKey ∉ s.dualKeys := by
      rw [← owned, ← Std.TreeSet.contains_iff_mem, taken]
      exact Bool.false_ne_true
    rw [add_new s c taken]
    simp only [dualKeys, List.map_append, List.map_cons, List.map_nil]
    exact List.nodup_append.mpr ⟨h, List.nodup_singleton _, by
      rintro k old l new rfl
      rw [List.mem_singleton.mp new] at old
      exact fresh old⟩

theorem Reachable.nodup_dualKeys (h : s.Reachable) : s.dualKeys.Nodup := by
  induction h with
  | empty => exact List.nodup_nil
  | add c reach ih => exact nodup_dualKeys_add _ c reach.mem_owned ih

/-! ## From a dual key to a position -/

/-- A dual key at an earlier position that is the same would be a duplicate. -/
theorem Reachable.indexOf?_dualKey (h : s.Reachable) {i : ℕ} {c : Constraint α}
    (hc : s.get? i = some c) : s.indexOf? c.dualKey = some i := by
  obtain ⟨below, at_i⟩ := List.getElem?_eq_some_iff.mp hc
  have mem : c ∈ s.constraints := List.mem_of_getElem? hc
  have owned : s.owned.contains c.dualKey = true :=
    Std.TreeSet.contains_iff_mem.mpr ((h.mem_owned _).mpr (List.mem_map_of_mem mem))
  rw [indexOf?, if_pos owned, List.findIdx?_eq_some_iff_getElem]
  refine ⟨below, by simp [at_i], fun j hj => ?_⟩
  intro same
  have keys : s.dualKeys[j]? = s.dualKeys[i]? := by
    simp only [dualKeys, List.getElem?_map, List.getElem?_eq_getElem below,
      List.getElem?_eq_getElem (hj.trans below), Option.map_some, of_decide_eq_true same, at_i]
  have := (List.getElem?_inj (by simp only [dualKeys, List.length_map]; omega) h.nodup_dualKeys).mp keys
  omega

end InequalityLayer.ConstraintSet

/-! ## The simplest constraint -/

namespace InequalityLayer

/-- A constraint with the same value everywhere, or without one. -/
def Constraint.level {α : Type} [Scalar α] (dualKey : Key) (value : Outcome α α) : Constraint α where
  keys := []
  dualKey
  violation _ := value
  linearize _ := value.map fun v =>
    .jacobian ⟨[], [-v], List.cons_ne_nil _ _, fun _ mem => nomatch mem⟩
  contribution _ _ := .ok none

end InequalityLayer
