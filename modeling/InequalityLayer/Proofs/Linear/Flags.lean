import InequalityLayer.Proofs.Constraint.Linearization
import Mathlib

/-!
Flags over runs of changes. A change pushes an inequality or sets one flag (`LinearizedSet.Change`), and `Made` is where
an inequality of a run comes from: it was there at the start or has been pushed. One change keeps every inequality but
for the flag (`get?_apply_eq_some_iff`), so at the end of a run each is what it was made as, with the flag that the last
change addressed to it since then has set (`get?_run_eq_some_iff`). Main statement: `run_flags`.
-/
namespace InequalityLayer
set_option autoImplicit false

variable {α : Type}

/-! ## One inequality -/

namespace LinearInequality

/-- The inequality with a new flag, or as it is. -/
def flagged (c : LinearInequality α) (flag : Option Bool) : LinearInequality α :=
  { c with active := flag.getD c.active }

theorem flagged_none (c : LinearInequality α) : c.flagged none = c := rfl

theorem flagged_flagged (c : LinearInequality α) (first second : Option Bool) :
    (c.flagged first).flagged second = c.flagged (second.or first) := by
  cases second <;> rfl

end LinearInequality

namespace LinearizedSet

/-! ## One change -/

inductive Change (α : Type) where
  | push (c : LinearInequality α)
  | activate (index : ℕ)
  | deactivate (index : ℕ)

/-- The flag that a change sets at position `i`, if it is addressed to it. -/
def Change.flag? (i : ℕ) : Change α → Option Bool
  | push _ => none
  | activate j => if j = i then some true else none
  | deactivate j => if j = i then some false else none

def apply (s : LinearizedSet α) : Change α → LinearizedSet α
  | .push c => s.push c
  | .activate i => s.activate i
  | .deactivate i => s.deactivate i

variable {s : LinearizedSet α} {i j : ℕ} {c d : LinearInequality α}

theorem get?_push_eq_some_iff : (s.push c).get? i = some d ↔ s.get? i = some d ∨ c = d ∧ s.size = i := by
  unfold push get? size
  rw [List.getElem?_append]
  split
  · next below => simp [below.ne']
  · next above =>
    have position : i - s.inequalities.length = 0 ↔ s.inequalities.length = i := by omega
    rw [List.getElem?_eq_none (not_lt.mp above), List.getElem?_singleton]
    simp [position, and_comm]

theorem get?_setActive (s : LinearizedSet α) (i j : ℕ) (active : Bool) :
    (s.setActive j active).get? i = (s.get? i).map fun c => c.flagged (if j = i then some active else none) := by
  unfold setActive get?
  rw [List.getElem?_modify]
  by_cases here : j = i <;> simp [here, LinearInequality.flagged]

theorem setActive_of_size_le (above : s.size ≤ i) (active : Bool) : s.setActive i active = s := by
  unfold setActive
  rw [List.modify_eq_self above]

/-- A change keeps what is there but for the flag it may set, and nothing is added but what is pushed. -/
theorem get?_apply_eq_some_iff (change : Change α) :
    (s.apply change).get? i = some d ↔
      (∃ c, s.get? i = some c ∧ d = c.flagged (change.flag? i)) ∨ change = .push d ∧ s.size = i := by
  cases change with
  | push c => simp [apply, get?_push_eq_some_iff, Change.flag?, LinearInequality.flagged_none]
  | activate j => simp [apply, activate, get?_setActive, Change.flag?, eq_comm]
  | deactivate j => simp [apply, deactivate, get?_setActive, Change.flag?, eq_comm]

/-! ## A run -/

def run (start : LinearizedSet α) (changes : List (Change α)) : LinearizedSet α := changes.foldl apply start

/-- The flag that the last change addressed to position `i` sets, if there is one. -/
def lastFlag? (i : ℕ) (changes : List (Change α)) : Option Bool := (changes.filterMap (Change.flag? i)).getLast?

/-- The inequality at position `i` was made as `c`, and `later` are the changes since then. -/
inductive Made (start : LinearizedSet α) (changes : List (Change α)) (i : ℕ) (c : LinearInequality α) :
    List (Change α) → Prop
  | atStart : start.get? i = some c → Made start changes i c changes
  | pushed {before later : List (Change α)} : changes = before ++ .push c :: later → (start.run before).size = i →
      Made start changes i c later

variable {start : LinearizedSet α} {changes later : List (Change α)} {change : Change α}

theorem run_concat (start : LinearizedSet α) (changes : List (Change α)) (change : Change α) :
    start.run (changes ++ [change]) = (start.run changes).apply change := by
  simp only [run, List.foldl_append, List.foldl_cons, List.foldl_nil]

theorem lastFlag?_concat (i : ℕ) (changes : List (Change α)) (change : Change α) :
    lastFlag? i (changes ++ [change]) = (change.flag? i).or (lastFlag? i changes) := by
  unfold lastFlag?
  rw [List.filterMap_append, List.filterMap_cons, List.filterMap_nil]
  cases change.flag? i with
  | none => simp
  | some flag => simp

theorem made_nil_iff : Made start [] i c later ↔ start.get? i = some c ∧ later = [] := by
  constructor
  · rintro (there | ⟨split, _⟩)
    · exact ⟨there, rfl⟩
    · simp at split
  · rintro ⟨there, rfl⟩
    exact .atStart there

theorem made_concat_iff :
    Made start (changes ++ [change]) i c later ↔
      (∃ earlier, Made start changes i c earlier ∧ later = earlier ++ [change]) ∨
        change = .push c ∧ (start.run changes).size = i ∧ later = [] := by
  constructor
  · rintro (there | ⟨split, size⟩)
    · exact .inl ⟨changes, .atStart there, rfl⟩
    · rename_i before
      obtain rfl | ⟨earlier, last, rfl⟩ := List.eq_nil_or_concat later
      · obtain ⟨rfl, same⟩ := List.append_inj' split rfl
        exact .inr ⟨(List.cons.inj same).1, size, rfl⟩
      · rw [List.concat_eq_append, ← List.cons_append, ← List.append_assoc] at split
        obtain ⟨rfl, same⟩ := List.append_inj' split rfl
        exact .inl ⟨earlier, .pushed rfl size, by rw [(List.cons.inj same).1, List.concat_eq_append]⟩
  · rintro (⟨earlier, there | ⟨rfl, size⟩, rfl⟩ | ⟨rfl, size, rfl⟩)
    · exact .atStart there
    · exact .pushed (by simp) size
    · exact .pushed rfl size

/-- What is there at the end of a run is what was made, with the last flag set since then. -/
theorem get?_run_eq_some_iff :
    (start.run changes).get? i = some d ↔
      ∃ c later, Made start changes i c later ∧ d = c.flagged (lastFlag? i later) := by
  induction changes using List.reverseRecOn generalizing d with
  | nil =>
    simp only [made_nil_iff]
    constructor
    · exact fun there => ⟨d, [], ⟨there, rfl⟩, rfl⟩
    · rintro ⟨c, _, ⟨there, rfl⟩, rfl⟩
      exact there
  | append_singleton changes change ih =>
    rw [run_concat, get?_apply_eq_some_iff]
    simp only [made_concat_iff, ih]
    constructor
    · rintro (⟨_, ⟨c, later, made, rfl⟩, rfl⟩ | ⟨push, size⟩)
      · refine ⟨c, later ++ [change], .inl ⟨later, made, rfl⟩, ?_⟩
        rw [LinearInequality.flagged_flagged, lastFlag?_concat]
      · exact ⟨d, [], .inr ⟨push, size, rfl⟩, rfl⟩
    · rintro ⟨c, _, ⟨later, made, rfl⟩ | ⟨push, size, rfl⟩, rfl⟩
      · refine .inl ⟨_, ⟨c, later, made, rfl⟩, ?_⟩
        rw [LinearInequality.flagged_flagged, lastFlag?_concat]
      · exact .inr ⟨push, size⟩

/-! ## Flagged positions -/

/-- The positions with a flag, in order. -/
def activePositions (s : LinearizedSet α) : List ℕ :=
  (s.inequalities.zipIdx.filter fun p => p.1.active).map Prod.snd

theorem mem_activePositions : i ∈ s.activePositions ↔ ∃ c, s.get? i = some c ∧ c.active = true := by
  simp only [activePositions, List.mem_map, List.mem_filter, Prod.exists, List.mk_mem_zipIdx_iff_getElem?, get?]
  constructor
  · rintro ⟨c, _, ⟨at_i, active⟩, rfl⟩
    exact ⟨c, at_i, active⟩
  · rintro ⟨c, at_i, active⟩
    exact ⟨c, i, ⟨at_i, active⟩, rfl⟩

theorem pairwise_activePositions (s : LinearizedSet α) : s.activePositions.Pairwise (· < ·) := by
  have sublist : s.activePositions.Sublist (s.inequalities.zipIdx.map Prod.snd) := List.filter_sublist.map _
  rw [List.zipIdx_map_snd] at sublist
  exact List.Pairwise.sublist sublist List.pairwise_lt_range'

theorem activeDualKeys_eq (s : LinearizedSet α) :
    s.activeDualKeys = (s.inequalities.zipIdx.filter fun p => p.1.active).map fun p => p.1.dualKey := by
  calc s.activeDualKeys
      = ((s.inequalities.zipIdx.map Prod.fst).filter LinearInequality.active).map LinearInequality.dualKey := by
        rw [List.zipIdx_map_fst, activeDualKeys]
    _ = (s.inequalities.zipIdx.filter fun p => p.1.active).map fun p => p.1.dualKey := by
        rw [List.filter_map, List.map_map]
        rfl

/-- One key for each flagged position, that of the inequality there. -/
theorem forall₂_activeDualKeys (s : LinearizedSet α) :
    List.Forall₂ (fun i k => ∃ c, s.get? i = some c ∧ c.dualKey = k) s.activePositions s.activeDualKeys := by
  rw [activeDualKeys_eq, activePositions, List.forall₂_map_left_iff, List.forall₂_map_right_iff, List.forall₂_same]
  rintro ⟨c, i⟩ mem
  exact ⟨c, List.mk_mem_zipIdx_iff_getElem?.mp (List.mem_filter.mp mem).1, rfl⟩

/-! ## Without flags -/

/-- The same inequalities, none of them with a flag. -/
def clear (s : LinearizedSet α) : LinearizedSet α := ⟨s.inequalities.map fun c => c.flagged (some false)⟩

theorem get?_clear (s : LinearizedSet α) (i : ℕ) :
    s.clear.get? i = (s.get? i).map fun c => c.flagged (some false) :=
  List.getElem?_map

variable [Scalar α] {δ : Assignment α}

theorem allWithin_clear (tol : α) (cs : List (LinearInequality α)) :
    allWithin δ tol (cs.map fun c => c.flagged (some false)) = allWithin δ tol cs := by
  induction cs with
  | nil => rfl
  | cons c cs ih => rw [List.map_cons, allWithin, allWithin, ih]; rfl

theorem isFeasible_clear (s : LinearizedSet α) (tol : α) : s.clear.isFeasible δ tol = s.isFeasible δ tol :=
  allWithin_clear tol s.inequalities

/-! ## The state after a run -/

/-- A run keeps coefficients and dual key of every inequality that was there at the start or has been pushed, and there
is no other. The flag is what the last change addressed to it since it was made has set; without such a change it is the
one it was made with, which for linearizations is no flag. Changes to positions without an inequality do nothing. The
active dual keys are those of the flagged positions in order, and no value or test depends on flags. -/
theorem run_flags (start : LinearizedSet α) (changes : List (Change α)) :
    (∀ i d, (start.run changes).get? i = some d ↔
      ∃ c later, Made start changes i c later ∧ d = { c with active := (lastFlag? i later).getD c.active }) ∧
    (∀ i c later d, Made start changes i c later → c.active = false → (start.run changes).get? i = some d →
      (d.active = true ↔ lastFlag? i later = some true)) ∧
    ((start = {} ∨ ∃ (s : ConstraintSet α) (x : Assignment α), (s.linearize x).outcome = .ok start) →
      ∀ i c, start.get? i = some c → c.active = false) ∧
    (∀ i, (start.run changes).size ≤ i →
      (start.run changes).activate i = start.run changes ∧ (start.run changes).deactivate i = start.run changes) ∧
    (∃ positions : List ℕ, positions.Pairwise (· < ·) ∧
      (∀ i, i ∈ positions ↔ ∃ d, (start.run changes).get? i = some d ∧ d.active = true) ∧
      List.Forall₂ (fun i k => ∃ d, (start.run changes).get? i = some d ∧ d.dualKey = k) positions
        (start.run changes).activeDualKeys) ∧
    ∀ δ : Assignment α,
      (∀ i, ((start.run changes).get? i).map (·.product δ) = ((start.run changes).clear.get? i).map (·.product δ) ∧
        ((start.run changes).get? i).map (·.error δ) = ((start.run changes).clear.get? i).map (·.error δ)) ∧
      ∀ tol, (start.run changes).isFeasible δ tol = (start.run changes).clear.isFeasible δ tol := by
  refine ⟨fun i d => get?_run_eq_some_iff, fun i c later d made fresh there => ?_, fun origin i c there => ?_,
    fun i above => ⟨setActive_of_size_le above true, setActive_of_size_le above false⟩,
    ⟨_, pairwise_activePositions _, fun i => mem_activePositions, forall₂_activeDualKeys _⟩,
    fun δ => ⟨fun i => ?_, fun tol => (isFeasible_clear _ tol).symm⟩⟩
  · rw [get?_run_eq_some_iff.mpr ⟨c, later, made, rfl⟩] at there
    obtain rfl := Option.some.inj there
    simp only [LinearInequality.flagged, fresh]
    cases lastFlag? i later <;> simp
  · obtain rfl | ⟨s, x, linear⟩ := origin
    · cases there
    · obtain ⟨d, _, row⟩ := (ConstraintSet.get?_linearize linear i).2 c there
      obtain ⟨J, _, rfl⟩ := Constraint.inequality_eq_ok_iff.mp row
      rfl
  · rw [get?_clear, Option.map_map, Option.map_map]
    exact ⟨rfl, rfl⟩

/-- An inequality that holds at every step or at none. -/
def fixed (dualKey : Key) (bound : Float) : LinearInequality Float :=
  { jacobian := ⟨[], [bound], List.cons_ne_nil _ _, fun _ mem => nomatch mem⟩, dualKey }

def fixedPair : LinearizedSet Float := ⟨[fixed ⟨7⟩ 1.0, fixed ⟨8⟩ (-0.5)]⟩

/-- The second change is addressed to a position that has no inequality yet, the last one to a position without any. -/
def toggles : List (Change Float) :=
  [.activate 1, .activate 2, .push (fixed ⟨9⟩ 2.0), .activate 0, .deactivate 1, .activate 5]

theorem run_flags_toggles :
    ((ConstraintSet.ofList [.level ⟨7⟩ (.ok (-1.0)), .level ⟨8⟩ (.ok 0.5)]).linearize ∅).outcome = .ok fixedPair ∧
    (∃ d, (fixedPair.run toggles).get? 0 = some d ∧ d.active = true) ∧
    (∀ d, (fixedPair.run toggles).get? 1 = some d → d.active = false) ∧
    (fixedPair.run toggles).get? 2 = some (fixed ⟨9⟩ 2.0) ∧
    (fixedPair.run toggles).activate 5 = fixedPair.run toggles := by
  obtain ⟨entries, flags, origin, outside, _⟩ := run_flags fixedPair toggles
  have linear : ((ConstraintSet.ofList [.level ⟨7⟩ (.ok (-1.0)), .level ⟨8⟩ (.ok 0.5)]).linearize ∅).outcome =
    .ok fixedPair := rfl
  have fresh := origin (.inr ⟨_, ∅, linear⟩)
  refine ⟨linear, ?_, fun d there => ?_, ?_, ?_⟩
  · have there := (entries 0 _).mpr ⟨fixed ⟨7⟩ 1.0, toggles, .atStart rfl, rfl⟩
    exact ⟨_, there, (flags 0 _ toggles _ (.atStart rfl) (fresh 0 _ rfl) there).mpr rfl⟩
  · rw [← Bool.not_eq_true, flags 1 _ toggles d (.atStart rfl) (fresh 1 _ rfl) there]
    decide
  · have split : toggles = [.activate 1, .activate 2] ++
      .push (fixed ⟨9⟩ 2.0) :: [.activate 0, .deactivate 1, .activate 5] := rfl
    exact (entries 2 _).mpr ⟨fixed ⟨9⟩ 2.0, _, .pushed split rfl, rfl⟩
  · exact (outside 5 (by decide)).1

end LinearizedSet

end InequalityLayer
