import InequalityLayer.Proofs.Constraint.Ownership
import Mathlib

/-!
Runs of additions. One addition either finds the dual key in use and changes nothing, or appends
(`add_cases`), so the constraints of a set stay where they are in every later one (`constraints_prefix`) and
a set holds exactly the constraints whose additions were accepted (`mem_constraints_ofList`). At every point
of a run the list and the keys kept beside it say the same (`Reachable.consistent`); `additions_append` puts
this together for one addition amid any others.
-/
namespace InequalityLayer.ConstraintSet
set_option autoImplicit false

variable {α : Type}

/-! ## One addition -/

def Accepts (s : ConstraintSet α) (c : Constraint α) : Prop := ∃ i, (s.add c).1 = .ok i

theorem add_cases (s : ConstraintSet α) (c : Constraint α) :
    c.dualKey ∈ s.owned ∧ ¬ s.Accepts c ∧ s.add c = (.error (.duplicateDualKey c.dualKey), s) ∨
      c.dualKey ∉ s.owned ∧ s.Accepts c ∧
        s.add c = (.ok s.size, ⟨s.constraints ++ [c], s.owned.insert c.dualKey⟩) := by
  cases taken : s.owned.contains c.dualKey with
  | true =>
    have same := add_owned s c taken
    exact .inl ⟨Std.TreeSet.contains_iff_mem.mp taken, by simp [Accepts, same], same⟩
  | false =>
    have appended := add_new s c taken
    refine .inr ⟨fun mem => ?_, ⟨s.size, by rw [appended]⟩, appended⟩
    rw [Std.TreeSet.contains_iff_mem.mpr mem] at taken
    cases taken

theorem accepts_iff (s : ConstraintSet α) (c : Constraint α) : s.Accepts c ↔ c.dualKey ∉ s.owned := by
  rcases add_cases s c with ⟨mem, refused, _⟩ | ⟨fresh, accepted, _⟩
  · exact iff_of_false refused (not_not_intro mem)
  · exact iff_of_true accepted fresh

theorem add_of_accepts {s : ConstraintSet α} {c : Constraint α} (h : s.Accepts c) :
    (s.add c).1 = .ok s.size ∧ (s.add c).2.constraints = s.constraints ++ [c] := by
  rcases add_cases s c with ⟨_, refused, _⟩ | ⟨_, _, appended⟩
  · exact absurd h refused
  · rw [appended]
    exact ⟨rfl, rfl⟩

theorem add_of_not_accepts {s : ConstraintSet α} {c : Constraint α} (h : ¬ s.Accepts c) :
    s.add c = (.error (.duplicateDualKey c.dualKey), s) := by
  rcases add_cases s c with ⟨_, _, same⟩ | ⟨_, accepted, _⟩
  · exact same
  · exact absurd accepted h

theorem constraints_prefix_add (s : ConstraintSet α) (c : Constraint α) :
    s.constraints <+: (s.add c).2.constraints := by
  by_cases h : s.Accepts c
  · rw [(add_of_accepts h).2]
    exact List.prefix_append _ _
  · rw [add_of_not_accepts h]

/-! ## A run of additions -/

theorem ofList_concat (calls : List (Constraint α)) (c : Constraint α) :
    ofList (calls ++ [c]) = ((ofList calls).add c).2 := by
  simp only [ofList, List.foldl_append, List.foldl_cons, List.foldl_nil]

theorem constraints_prefix (earlier later : List (Constraint α)) :
    (ofList earlier).constraints <+: (ofList (earlier ++ later)).constraints := by
  induction later using List.reverseRecOn with
  | nil => rw [List.append_nil]
  | append_singleton later c ih =>
    rw [← List.append_assoc, ofList_concat]
    exact ih.trans (constraints_prefix_add _ c)

theorem get?_of_accepts {earlier : List (Constraint α)} {c : Constraint α} {i : ℕ}
    (ok : ((ofList earlier).add c).1 = .ok i) (later : List (Constraint α)) :
    (ofList (earlier ++ c :: later)).get? i = some c := by
  obtain ⟨position, appended⟩ := add_of_accepts ⟨i, ok⟩
  obtain rfl : i = (ofList earlier).size := Except.ok.inj (ok.symm.trans position)
  have kept := constraints_prefix (earlier ++ [c]) later
  rw [List.append_assoc, List.singleton_append, ofList_concat, appended] at kept
  have at_end := List.prefix_iff_getElem?.mp kept (ofList earlier).constraints.length (by simp)
  rwa [List.getElem_concat_length rfl] at at_end

/-- The constraints of a set are those whose additions were accepted. -/
theorem mem_constraints_ofList (calls : List (Constraint α)) (c : Constraint α) :
    c ∈ (ofList calls).constraints ↔
      ∃ before after, calls = before ++ c :: after ∧ (ofList before).Accepts c := by
  constructor
  · induction calls using List.reverseRecOn with
    | nil => exact nofun
    | append_singleton calls d ih =>
      rw [ofList_concat]
      intro mem
      by_cases h : (ofList calls).Accepts d
      · rw [(add_of_accepts h).2, List.mem_append, List.mem_singleton] at mem
        obtain old | rfl := mem
        · obtain ⟨before, after, rfl, accepted⟩ := ih old
          exact ⟨before, after ++ [d], by simp, accepted⟩
        · exact ⟨calls, [], rfl, h⟩
      · rw [add_of_not_accepts h] at mem
        obtain ⟨before, after, rfl, accepted⟩ := ih mem
        exact ⟨before, after ++ [d], by simp, accepted⟩
  · rintro ⟨before, after, rfl, i, ok⟩
    exact List.mem_of_getElem? (get?_of_accepts ok after)

/-! ## List and keys in step -/

/-- The keys kept beside the list are its dual keys, no two constraints share one, and a dual key leads to
the position of its constraint and to no other, with or without a look at the keys first. -/
structure Consistent (s : ConstraintSet α) : Prop where
  mem_owned : ∀ k, k ∈ s.owned ↔ k ∈ s.dualKeys
  nodup_dualKeys : s.dualKeys.Nodup
  get?_eq_none : ∀ i, s.size ≤ i → s.get? i = none
  indexOf?_eq_some : ∀ k i, s.indexOf? k = some i ↔ ∃ c, s.get? i = some c ∧ c.dualKey = k
  indexOf?_eq_scan : ∀ k, s.indexOf? k = s.constraints.findIdx? fun c => decide (c.dualKey = k)

/-- A key that is not in use belongs to no constraint, so a scan finds none either. -/
theorem Reachable.indexOf?_eq_scan {s : ConstraintSet α} (h : s.Reachable) (k : Key) :
    s.indexOf? k = s.constraints.findIdx? fun c => decide (c.dualKey = k) := by
  unfold indexOf?
  split
  · rfl
  · next absent =>
    symm
    rw [List.findIdx?_eq_none_iff]
    intro c mem
    refine decide_eq_false fun same => absent (Std.TreeSet.contains_iff_mem.mpr ?_)
    exact (h.mem_owned k).mpr (same ▸ List.mem_map_of_mem mem)

theorem Reachable.consistent {s : ConstraintSet α} (h : s.Reachable) : s.Consistent where
  mem_owned := h.mem_owned
  nodup_dualKeys := h.nodup_dualKeys
  get?_eq_none _ large := List.getElem?_eq_none large
  indexOf?_eq_scan := h.indexOf?_eq_scan
  indexOf?_eq_some k i := by
    constructor
    · intro found
      rw [h.indexOf?_eq_scan, List.findIdx?_eq_some_iff_getElem] at found
      obtain ⟨below, same, _⟩ := found
      exact ⟨_, List.getElem?_eq_getElem below, of_decide_eq_true same⟩
    · rintro ⟨c, at_i, rfl⟩
      exact h.indexOf?_dualKey at_i

/-- An addition is accepted unless an accepted one before it has the same dual key. A refused one changes
nothing; an accepted one appends, and its answer names the constraint in every later set. -/
theorem additions_append (earlier later : List (Constraint α)) (c : Constraint α) :
    ((ofList earlier).Accepts c ↔ ∀ before d after, earlier = before ++ d :: after →
      (ofList before).Accepts d → d.dualKey ≠ c.dualKey) ∧
    (¬ (ofList earlier).Accepts c →
      (ofList earlier).add c = (.error (.duplicateDualKey c.dualKey), ofList earlier)) ∧
    ((ofList earlier).Accepts c → ((ofList earlier).add c).1 = .ok (ofList earlier).size ∧
      ((ofList earlier).add c).2.constraints = (ofList earlier).constraints ++ [c]) ∧
    (∀ i, ((ofList earlier).add c).1 = .ok i → (ofList (earlier ++ c :: later)).get? i = some c) ∧
    (ofList earlier).Consistent := by
  have reach := reachable_ofList earlier
  refine ⟨?_, add_of_not_accepts, add_of_accepts, fun i ok => get?_of_accepts ok later, reach.consistent⟩
  rw [accepts_iff, reach.mem_owned]
  constructor
  · rintro fresh before d after split accepted same
    have kept := (mem_constraints_ofList earlier d).mpr ⟨before, after, split, accepted⟩
    exact fresh (same ▸ List.mem_map_of_mem kept)
  · intro distinct mem
    obtain ⟨d, kept, same⟩ := List.mem_map.mp mem
    obtain ⟨before, after, split, accepted⟩ := (mem_constraints_ofList earlier d).mp kept
    exact distinct before d after split accepted same

end InequalityLayer.ConstraintSet
