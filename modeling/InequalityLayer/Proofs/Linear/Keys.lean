import InequalityLayer.Linear.Hessian
import InequalityLayer.Proofs.Key.Order
import Mathlib

/-!
The variables of a correction. They are listed once each, in increasing order (`pairwise_keys`, `mem_keys`), and a list
in strictly increasing order is known by its members (`keys_eq_iff`). Main statement: `keys_pushAll`, for the
corrections that pushing makes.
-/
namespace InequalityLayer.LagrangianCorrection
set_option autoImplicit false
open Key (eq_of_increasing)

variable {α : Type}

/-! ## Increasing lists of keys -/

/-- Where equal keys stand together, the first of each run are all keys, once each. -/
theorem destutter_of_sorted {keys : List Key} (sorted : keys.Pairwise fun k l => k.raw ≤ l.raw) :
    ((keys.destutter (· ≠ ·)).Pairwise fun k l => k.raw < l.raw) ∧ ∀ k, k ∈ keys.destutter (· ≠ ·) ↔ k ∈ keys := by
  have : Std.Antisymm fun k l : Key => k.raw ≤ l.raw := ⟨fun _ _ => Key.eq_of_raw_le⟩
  rw [sorted.destutter_eq_dedup]
  refine ⟨?_, fun k => List.mem_dedup⟩
  have distinct := (List.nodup_dedup keys).and (sorted.sublist keys.dedup_sublist)
  exact distinct.imp fun ⟨ne, le⟩ => Key.raw_lt_of_ne le ne

/-! ## Variables of a correction -/

theorem pairwise_keys (L : LagrangianCorrection α) : L.keys.Pairwise fun k l => k.raw < l.raw := by
  have ordered : L.keys.Pairwise fun k l => compare k l = .lt := Std.TreeSet.ordered_toList
  exact ordered.imp fun less => Key.compare_eq_lt_iff_raw_lt.mp less

theorem mem_keys (L : LagrangianCorrection α) (k : Key) : k ∈ L.keys ↔ ∃ term ∈ L.terms, k ∈ term.keys := by
  rw [keys, Std.TreeSet.mem_toList, Std.TreeSet.mem_ofList, List.contains_iff_mem, List.mem_flatMap]

/-- Corrections over the same variables list them alike, whatever their terms are. -/
theorem keys_eq_iff {L M : LagrangianCorrection α} :
    L.keys = M.keys ↔ ∀ k, (∃ term ∈ L.terms, k ∈ term.keys) ↔ ∃ term ∈ M.terms, k ∈ term.keys := by
  simp only [← mem_keys]
  exact ⟨fun same k => by rw [same], eq_of_increasing L.pairwise_keys M.pairwise_keys⟩

/-! ## Pushes -/

def pushAll (c : LagrangianCorrection α) (terms : List (HessianFactor α)) : LagrangianCorrection α :=
  terms.foldl push c

theorem terms_pushAll (c : LagrangianCorrection α) (terms : List (HessianFactor α)) :
    (c.pushAll terms).terms = c.terms ++ terms := by
  unfold pushAll
  induction terms generalizing c with
  | nil => exact (List.append_nil _).symm
  | cons term terms ih =>
    rw [List.foldl_cons, ih, push, List.append_assoc, List.singleton_append]

/-- The variables of what has been pushed are listed in strictly increasing order, and each that some term has is among
them. So neither order nor number of the pushes matters, but only which variables they bring. The same list is left when
the variables of all terms are sorted in any way and repetitions next to each other are dropped. -/
theorem keys_pushAll (terms : List (HessianFactor α)) :
    ((pushAll {} terms).keys.Pairwise fun k l => k.raw < l.raw) ∧
    (∀ k, k ∈ (pushAll {} terms).keys ↔ ∃ term ∈ terms, k ∈ term.keys) ∧
    (∀ others : List (HessianFactor α), (pushAll {} others).keys = (pushAll {} terms).keys ↔
      ∀ k, (∃ term ∈ others, k ∈ term.keys) ↔ ∃ term ∈ terms, k ∈ term.keys) ∧
    ∀ sorted : List Key, sorted.Perm (terms.flatMap HessianFactor.keys) →
      (sorted.Pairwise fun k l => k.raw ≤ l.raw) → sorted.destutter (· ≠ ·) = (pushAll {} terms).keys := by
  have pushed (terms : List (HessianFactor α)) : (pushAll {} terms).terms = terms := terms_pushAll {} terms
  refine ⟨pairwise_keys _, fun k => ?_, fun others => ?_, fun sorted perm increasing => ?_⟩
  · rw [mem_keys, pushed]
  · rw [keys_eq_iff, pushed, pushed]
  · obtain ⟨strictly, members⟩ := destutter_of_sorted increasing
    refine eq_of_increasing strictly (pairwise_keys _) fun k => ?_
    rw [members, perm.mem_iff, List.mem_flatMap, mem_keys, pushed]

/-- The form that is zero at every step. -/
def zeroForm (layout : Layout) : HessianFactor ℚ where
  layout
  curvature := List.replicate (layout.dim * layout.dim) 0
  linear := List.replicate layout.dim 0
  constant := 0
  length_curvature := List.length_replicate
  length_linear := List.length_replicate

/-- One variable twice in a form, another one in two forms, and a form without variables. -/
def overlapping : List (HessianFactor ℚ) :=
  [zeroForm [(⟨5⟩, 1), (⟨2⟩, 0), (⟨5⟩, 1)], zeroForm [], zeroForm [(⟨2⟩, 1)]]

theorem keys_pushAll_overlapping :
    (pushAll {} overlapping).keys = [⟨2⟩, ⟨5⟩] ∧
    (pushAll {} [zeroForm [(⟨2⟩, 3), (⟨5⟩, 1)]]).keys = (pushAll {} overlapping).keys := by
  obtain ⟨_, members, alike, dropped⟩ := keys_pushAll overlapping
  have listed : (pushAll {} overlapping).keys = [⟨2⟩, ⟨5⟩] := by
    rw [← dropped [⟨2⟩, ⟨2⟩, ⟨5⟩, ⟨5⟩] (by decide) (by decide)]
    decide
  have single : (zeroForm [(⟨2⟩, 3), (⟨5⟩, 1)]).keys = [⟨2⟩, ⟨5⟩] := rfl
  refine ⟨listed, (alike _).mpr fun k => ?_⟩
  simp only [← members, listed, List.mem_singleton, exists_eq_left, single]

end InequalityLayer.LagrangianCorrection
