import InequalityLayer.Kkt.Check
import Mathlib

/-!
The records of a test. `checkFrom` is the test without counter and tracer: its verdict, with a record of each
constraint up to the one that decides. The loop counts these records, and a history receives them
(`testFrom_eq`), so a report is made of verdict and records alone (`outcome_kktReport`). Main statements: that, the
step lemmas `checkFrom_error`, `checkFrom_defect` and `checkFrom_pass`, and `checkFrom_cons_cases` back from an
answer.
-/
namespace InequalityLayer
set_option autoImplicit false

variable {α : Type}

/-! ## Kept records -/

/-- The tracer once the pass has emitted the records of a list. -/
def Tracer.keep (t : Tracer α) (records : List (TraceRecord α)) : Tracer α :=
  { t with history := t.history.map (· ++ records) }

namespace Tracer

theorem emit_eq (t : Tracer α) (row : TraceRow α) :
    t.emit row = ⟨[.visited (row.record t.pass)], .ok (t.keep [row.record t.pass])⟩ := rfl

theorem keep_nil (t : Tracer α) : t.keep [] = t := by
  obtain ⟨pass, _ | history⟩ := t <;> simp [keep]

theorem keep_keep (t : Tracer α) (records others : List (TraceRecord α)) :
    (t.keep records).keep others = t.keep (records ++ others) := by
  obtain ⟨pass, _ | history⟩ := t <;> simp [keep]

end Tracer

namespace Kkt

/-- The event at the end of a test. -/
def Status.summary (checked : ℕ) (tol : α) : Status α → Event α
  | satisfied => .kktSatisfied checked tol
  | failed defect index dualKey violation => .kktFailed (.failed defect index dualKey violation) tol

variable [Scalar α]

def recordOf (duals : Assignment α) (i : ℕ) (c : Constraint α) (v : α) (note : Option String) :
    TraceRecord α :=
  { pass := "kkt", index := i, dualKey := c.dualKey, violation := some v
    active := some (duals.contains c.dualKey), note }

/-- The verdict on a list of constraints, the first of which stands at position `i`, and a record of each
constraint up to the one that decides. -/
def checkFrom (x duals : Assignment α) (tol : α) :
    ℕ → List (Constraint α) → Pass α (Status α × List (TraceRecord α))
  | _, [] => pure (.satisfied, [])
  | i, c :: rest => do
    let violation ← c.violation x
    match defect? tol (duals.contains c.dualKey) violation with
    | some defect =>
      let record := recordOf duals i c violation (some defect.note)
      Pass.log (defect.warnings c.dualKey violation ++ [.visited record])
      return (.failed defect i c.dualKey violation, [record])
    | none =>
      let record := recordOf duals i c violation none
      Pass.emit (.visited record)
      let (status, records) ← checkFrom x duals tol (i + 1) rest
      return (status, record :: records)

/-! ## One constraint -/

section Step

variable {x duals : Assignment α} {tol v : α} {c : Constraint α} (i : ℕ) (rest : List (Constraint α))

theorem checkFrom_error {e : Failure α} (h : c.violation x = .error e) :
    checkFrom x duals tol i (c :: rest) = ⟨[], .error e⟩ := by
  rw [checkFrom, h]
  exact Pass.lift_bind_error e _

theorem checkFrom_defect {d : Defect} (h : c.violation x = .ok v)
    (hd : defect? tol (duals.contains c.dualKey) v = some d) :
    checkFrom x duals tol i (c :: rest) =
      ⟨d.warnings c.dualKey v ++ [.visited (recordOf duals i c v (some d.note))],
        .ok (.failed d i c.dualKey v, [recordOf duals i c v (some d.note)])⟩ := by
  rw [checkFrom, h, Pass.lift_bind_ok]
  simp only [hd, Pass.log_bind, Pass.pure_eq, List.append_nil]

theorem checkFrom_pass (h : c.violation x = .ok v)
    (hd : defect? tol (duals.contains c.dualKey) v = none) :
    checkFrom x duals tol i (c :: rest) =
      ⟨.visited (recordOf duals i c v none) :: (checkFrom x duals tol (i + 1) rest).events,
        (checkFrom x duals tol (i + 1) rest).outcome.map fun r => (r.1, recordOf duals i c v none :: r.2)⟩ := by
  rw [checkFrom, h, Pass.lift_bind_ok]
  simp only [hd, Pass.emit_bind]
  cases later : (checkFrom x duals tol (i + 1) rest).outcome with
  | error e => rw [Pass.bind_error _ _ e later]; rfl
  | ok r => rw [Pass.bind_ok _ _ r later, Pass.pure_eq, List.append_nil]; rfl

/-- What a run that is answered has done at its first constraint: it ended there with a defect, or passed it. -/
theorem checkFrom_cons_cases {status : Status α} {records : List (TraceRecord α)}
    (ok : (checkFrom x duals tol i (c :: rest)).outcome = .ok (status, records)) :
    ∃ v, c.violation x = .ok v ∧
      ((∃ d, defect? tol (duals.contains c.dualKey) v = some d ∧ status = .failed d i c.dualKey v ∧
        records = [recordOf duals i c v (some d.note)] ∧ (checkFrom x duals tol i (c :: rest)).events =
          d.warnings c.dualKey v ++ [.visited (recordOf duals i c v (some d.note))]) ∨
      defect? tol (duals.contains c.dualKey) v = none ∧
        ∃ others, (checkFrom x duals tol (i + 1) rest).outcome = .ok (status, others) ∧
          records = recordOf duals i c v none :: others ∧ (checkFrom x duals tol i (c :: rest)).events =
            .visited (recordOf duals i c v none) :: (checkFrom x duals tol (i + 1) rest).events) := by
  cases hv : c.violation x with
  | error e =>
    rw [checkFrom_error i rest hv] at ok
    cases ok
  | ok v =>
    refine ⟨v, rfl, ?_⟩
    cases hd : defect? tol (duals.contains c.dualKey) v with
    | some d =>
      rw [checkFrom_defect i rest hv hd] at ok ⊢
      cases ok
      exact .inl ⟨d, rfl, rfl, rfl, rfl⟩
    | none =>
      rw [checkFrom_pass i rest hv hd] at ok ⊢
      cases later : (checkFrom x duals tol (i + 1) rest).outcome with
      | error e =>
        rw [later] at ok
        cases ok
      | ok r =>
        rw [later] at ok
        cases ok
        exact .inr ⟨rfl, r.2, rfl, rfl, rfl⟩

end Step

/-! ## Counter and history -/

/-- The loop adds the number of records to its counter, and the records to its history. -/
theorem testFrom_eq (x duals : Assignment α) (tol : α) (constraints : List (Constraint α)) {tracer : Tracer α}
    (named : tracer.pass = "kkt") (checked i : ℕ) :
    testFrom x duals tol tracer checked i constraints =
      ⟨(checkFrom x duals tol i constraints).events, (checkFrom x duals tol i constraints).outcome.map fun r =>
        (r.1, checked + r.2.length, tracer.keep r.2)⟩ := by
  induction constraints generalizing tracer checked i with
  | nil =>
    rw [testFrom, checkFrom, Pass.pure_eq, Pass.pure_eq, Except.map, List.length_nil, tracer.keep_nil]
    rfl
  | cons c rest ih =>
    cases hv : c.violation x with
    | error e =>
      rw [checkFrom_error i rest hv, testFrom, hv]
      exact Pass.lift_bind_error e _
    | ok v =>
      rw [testFrom, hv, Pass.lift_bind_ok]
      cases hd : defect? tol (duals.contains c.dualKey) v with
      | some d =>
        rw [checkFrom_defect i rest hv hd]
        simp only [hd, Pass.log_bind, Tracer.emit_eq, named]
        rfl
      | none =>
        have kept : (tracer.keep [recordOf duals i c v none]).pass = "kkt" := named
        have emitted : tracer.emit { index := i, dualKey := c.dualKey, violation := some v
                                     active := some (duals.contains c.dualKey) } =
            ⟨[.visited (recordOf duals i c v none)], .ok (tracer.keep [recordOf duals i c v none])⟩ := by
          rw [Tracer.emit_eq, named]
          rfl
        simp only [hd, emitted]
        rw [checkFrom_pass i rest hv hd, Pass.bind_ok _ _ _ rfl, ih kept]
        cases (checkFrom x duals tol (i + 1) rest).outcome with
        | error e => rfl
        | ok r =>
          have count : checked + 1 + r.2.length = checked + (r.2.length + 1) := by omega
          simp only [Except.map, Tracer.keep_keep, List.singleton_append, List.length_cons, count]

theorem Options.pass_tracer (options : Options α) : options.tracer.pass = "kkt" := by
  unfold tracer
  cases options.collectTrace <;> rfl

theorem Options.history_keep_tracer (options : Options α) (records : List (TraceRecord α)) :
    (options.tracer.keep records).history = if options.collectTrace then some records else none := by
  unfold tracer
  cases options.collectTrace <;> rfl

end Kkt

/-! ## Reports -/

namespace ConstraintSet
open Kkt

variable [Scalar α] {s : ConstraintSet α} {x duals : Assignment α} (options : Options α)

theorem kktReport_of_ok {status : Status α} {records : List (TraceRecord α)}
    (run : (checkFrom x duals options.tol 0 s.constraints).outcome = .ok (status, records)) :
    s.kktReport x duals options =
      ⟨(checkFrom x duals options.tol 0 s.constraints).events ++ [status.summary records.length options.tol],
        .ok ⟨status, records.length, if options.collectTrace then some records else none⟩⟩ := by
  unfold kktReport
  rw [testFrom_eq _ _ _ _ options.pass_tracer, run, Pass.bind_ok _ _ _ rfl, ← options.history_keep_tracer]
  cases status <;> simp [Pass.emit_bind, Pass.pure_eq, Status.summary]

theorem kktReport_of_error {e : Failure α}
    (run : (checkFrom x duals options.tol 0 s.constraints).outcome = .error e) :
    s.kktReport x duals options = ⟨(checkFrom x duals options.tol 0 s.constraints).events, .error e⟩ := by
  unfold kktReport
  rw [testFrom_eq _ _ _ _ options.pass_tracer, run, Pass.bind_error _ _ e rfl]

theorem outcome_kktReport (s : ConstraintSet α) (x duals : Assignment α) :
    (s.kktReport x duals options).outcome =
      (checkFrom x duals options.tol 0 s.constraints).outcome.map fun r =>
        { status := r.1, checked := r.2.length
          trace := if options.collectTrace then some r.2 else none } := by
  cases run : (checkFrom x duals options.tol 0 s.constraints).outcome with
  | error e =>
    rw [kktReport_of_error options run]
    rfl
  | ok r =>
    rw [kktReport_of_ok options run]
    rfl

/-- Tests that check alike give the same report and log. -/
theorem kktReport_congr {t : ConstraintSet α} {y other : Assignment α}
    (same : checkFrom x duals options.tol 0 s.constraints = checkFrom y other options.tol 0 t.constraints) :
    s.kktReport x duals options = t.kktReport y other options := by
  unfold kktReport
  simp only [testFrom_eq _ _ _ _ options.pass_tracer, same]

end ConstraintSet

end InequalityLayer
