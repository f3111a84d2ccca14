import InequalityLayer.Constraint.Basic
import Std.Data.TreeSet

/-!
Ordered sets of constraints. A constraint is named by its position, which never changes, and owned by
its dual variable, which no other constraint of the set may have. The dual keys in use are kept beside
the list, so that a new one is tested without a search. Main statement: `mem_owned_add`, the keys in
use are the dual keys of the list whenever they were before.
-/
namespace InequalityLayer
set_option autoImplicit false

variable {α : Type}

structure ConstraintSet (α : Type) where
  constraints : List (Constraint α) := []
  owned : Std.TreeSet Key := ∅

namespace ConstraintSet

/-- Appends a constraint whose dual key is not in use. The answer is its position; the set stays as it
was if there is none. -/
def add (s : ConstraintSet α) (c : Constraint α) :
    Except (ConstraintError α) Nat × ConstraintSet α :=
  if s.owned.contains c.dualKey then (.error (.duplicateDualKey c.dualKey), s)
  else (.ok s.constraints.length, ⟨s.constraints ++ [c], s.owned.insert c.dualKey⟩)

/-- Adds constraints one after the other; one whose dual key is in use is left out. -/
def ofList (constraints : List (Constraint α)) : ConstraintSet α :=
  constraints.foldl (fun s c => (s.add c).2) {}

def size (s : ConstraintSet α) : Nat := s.constraints.length

def get? (s : ConstraintSet α) (index : Nat) : Option (Constraint α) := s.constraints[index]?

/-- The position of the constraint that a dual variable belongs to. -/
def indexOf? (s : ConstraintSet α) (dualKey : Key) : Option Nat :=
  if s.owned.contains dualKey then s.constraints.findIdx? fun c => decide (c.dualKey = dualKey)
  else none

/-- The dual keys by position. -/
def dualKeys (s : ConstraintSet α) : List Key := s.constraints.map Constraint.dualKey

/-! ## Adding a constraint -/

theorem add_owned (s : ConstraintSet α) (c : Constraint α) (h : s.owned.contains c.dualKey = true) :
    s.add c = (.error (.duplicateDualKey c.dualKey), s) := by
  simp [add, h]

theorem add_new (s : ConstraintSet α) (c : Constraint α) (h : s.owned.contains c.dualKey = false) :
    s.add c = (.ok s.size, ⟨s.constraints ++ [c], s.owned.insert c.dualKey⟩) := by
  simp [add, h, size]

theorem mem_owned_add (s : ConstraintSet α) (c : Constraint α)
    (h : ∀ k, k ∈ s.owned ↔ k ∈ s.dualKeys) (k : Key) :
    k ∈ (s.add c).2.owned ↔ k ∈ (s.add c).2.dualKeys := by
  cases taken : s.owned.contains c.dualKey with
  | true => rw [add_owned s c taken]; exact h k
  | false =>
    rw [add_new s c taken, Std.TreeSet.mem_insert, h k, Std.LawfulEqCmp.compare_eq_iff_eq]
    simp only [dualKeys, List.map_append, List.map_cons, List.map_nil, List.mem_append,
      List.mem_singleton]
    constructor
    · rintro (rfl | old)
      · exact .inr rfl
      · exact .inl old
    · rintro (old | rfl)
      · exact .inr old
      · exact .inl rfl

end ConstraintSet

end InequalityLayer
