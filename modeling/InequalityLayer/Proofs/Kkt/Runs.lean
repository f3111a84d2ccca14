import InequalityLayer.Proofs.Kkt.Verdict
import Mathlib

/-!
Verdict and count of a run. Where some constraint stops the test there is a first one (`exists_firstStop`), and
its value decides what is answered (`FirstStop.verdict_eq`); where none does, the set is satisfied
(`verdict_of_not_stops`). Either way the test has counted the constraints it looked at (`looksAt_checked`).
-/
namespace InequalityLayer.Kkt
set_option autoImplicit false

variable {α : Type}

/-- What a report says apart from its trace. -/
def Report.verdict (r : Report α) : Status α × ℕ := (r.status, r.checked)

theorem map_verdict_eq_ok_iff {outcome : Outcome α (Report α)} {status : Status α} {checked : ℕ} :
    outcome.map Report.verdict = .ok (status, checked) ↔
      ∃ r, outcome = .ok r ∧ r.status = status ∧ r.checked = checked := by
  cases outcome <;> simp [Except.map, Report.verdict]

variable [Scalar α] {s : ConstraintSet α} {x duals : Assignment α}

theorem exists_firstStop {tol : α} (h : ∃ c ∈ s.constraints, Stops x duals tol c) :
    ∃ i c, FirstStop s x duals tol i c := by
  classical
  have stopping : ∃ i, ∃ c, s.get? i = some c ∧ Stops x duals tol c := by
    obtain ⟨c, mem, stops⟩ := h
    obtain ⟨i, at_i⟩ := List.mem_iff_getElem?.mp mem
    exact ⟨i, c, at_i, stops⟩
  obtain ⟨c, get, stops⟩ := Nat.find_spec stopping
  exact ⟨Nat.find stopping, c, get, stops, fun j d below at_j stops_d =>
    Nat.find_min stopping below ⟨d, at_j, stops_d⟩⟩

theorem FirstStop.lt_size {tol : α} {i : ℕ} {c : Constraint α} (h : FirstStop s x duals tol i c) : i < s.size :=
  (List.getElem?_eq_some_iff.mp h.get).1

theorem FirstStop.le {tol : α} {i j : ℕ} {c d : Constraint α} (first : FirstStop s x duals tol i c)
    (at_j : s.get? j = some d) (stops : Stops x duals tol d) : i ≤ j := by
  by_contra earlier
  exact first.before j d (not_le.mp earlier) at_j stops

/-- A test looks at this many constraints: at all of them if none stops it, and else up to the first that does. -/
def LooksAt (s : ConstraintSet α) (x duals : Assignment α) (tol : α) (count : ℕ) : Prop :=
  (∀ c ∈ s.constraints, ¬ Stops x duals tol c) ∧ count = s.size ∨
    ∃ i c, FirstStop s x duals tol i c ∧ count = i + 1

/-! ## Reports -/

theorem verdict_of_not_stops {options : Options α}
    (h : ∀ c ∈ s.constraints, ¬ Stops x duals options.tol c) :
    (s.kktReport x duals options).outcome.map Report.verdict = .ok (.satisfied, s.size) := by
  obtain ⟨_, records, length, run⟩ := checkFrom_past x duals options.tol s.constraints [] 0 h
  rw [List.append_nil] at run
  rw [ConstraintSet.outcome_kktReport, run]
  simp [checkFrom, Pass.pure_eq, Except.map, Report.verdict, length, ConstraintSet.size]

theorem FirstStop.verdict_eq {options : Options α} {i : ℕ} {c : Constraint α}
    (h : FirstStop s x duals options.tol i c) :
    (s.kktReport x duals options).outcome.map Report.verdict =
      (c.violation x).map fun v => (.failed (blame options.tol v) i c.dualKey v, i + 1) := by
  obtain ⟨records, length, run⟩ := h.outcome_checkFrom
  rw [ConstraintSet.outcome_kktReport, run]
  cases hv : c.violation x with
  | error e =>
    rw [checkFrom_error i [] hv]
    rfl
  | ok v =>
    rw [checkFrom_defect i [] hv (defect?_of_stops h.stops hv)]
    simp [Except.map, Report.verdict, length]

variable {options : Options α} {r : Report α}

theorem FirstStop.checked_eq {i : ℕ} {c : Constraint α} (first : FirstStop s x duals options.tol i c)
    (ok : (s.kktReport x duals options).outcome = .ok r) : r.checked = i + 1 := by
  have verdict := first.verdict_eq
  rw [ok] at verdict
  cases value : c.violation x with
  | error e =>
    rw [value] at verdict
    cases verdict
  | ok v =>
    rw [value] at verdict
    exact (Prod.mk.inj (Except.ok.inj verdict)).2

theorem checked_of_not_stops (passed : ∀ c ∈ s.constraints, ¬ Stops x duals options.tol c)
    (ok : (s.kktReport x duals options).outcome = .ok r) : r.checked = s.size := by
  have verdict := verdict_of_not_stops passed
  rw [ok] at verdict
  exact (Prod.mk.inj (Except.ok.inj verdict)).2

theorem looksAt_checked (ok : (s.kktReport x duals options).outcome = .ok r) :
    LooksAt s x duals options.tol r.checked := by
  by_cases stopped : ∃ c ∈ s.constraints, Stops x duals options.tol c
  · obtain ⟨i, c, first⟩ := exists_firstStop stopped
    exact .inr ⟨i, c, first, first.checked_eq ok⟩
  · push Not at stopped
    exact .inl ⟨stopped, checked_of_not_stops stopped ok⟩

theorem looksAt_length {tol : α} {status : Status α} {records : List (TraceRecord α)}
    (run : (checkFrom x duals tol 0 s.constraints).outcome = .ok (status, records)) :
    LooksAt s x duals tol records.length := by
  have report : (s.kktReport x duals { tol }).outcome = .ok ⟨status, records.length, none⟩ := by
    rw [ConstraintSet.kktReport_of_ok { tol } run]
    rfl
  exact looksAt_checked report

theorem checked_le_size (ok : (s.kktReport x duals options).outcome = .ok r) : r.checked ≤ s.size := by
  obtain ⟨_, all⟩ | ⟨i, c, first, upto⟩ := looksAt_checked ok
  · exact all.le
  · rw [upto]
    exact first.lt_size

end InequalityLayer.Kkt
