import InequalityLayer.Proofs.Constraint.Ownership
import InequalityLayer.Proofs.Kkt.Records
import Mathlib

/-!
Verdicts of the optimality test. `Stops` says without the test when a constraint ends it, `FirstStop`
which constraint does. Main statements: the run lemmas `checkFrom_past` (constraints that do not stop the
test are passed) and `checkFrom_upto` (nothing after a constraint that stops it is looked at); and
`kktReport_verdict`, the report and the yes-or-no answer on every set of constraints.
-/
namespace InequalityLayer.Kkt
set_option autoImplicit false

variable {α : Type} [Scalar α]

/-! ## What stops the test -/

/-- A constraint without a value, with one that is no finite number or above the tolerance, or with a
dual entry and a value away from zero. -/
def Stops (x duals : Assignment α) (tol : α) (c : Constraint α) : Prop :=
  (∃ e, c.violation x = .error e) ∨
    ∃ v, c.violation x = .ok v ∧ (Scalar.isFinite v = false ∨ tol < v ∨
      duals.contains c.dualKey = true ∧ tol < Scalar.abs v)

/-- The constraint that stops the test first, and its position. -/
structure FirstStop (s : ConstraintSet α) (x duals : Assignment α) (tol : α) (i : ℕ)
    (c : Constraint α) : Prop where
  get : s.get? i = some c
  stops : Stops x duals tol c
  before : ∀ j d, j < i → s.get? j = some d → ¬ Stops x duals tol d

/-- The defect that a constraint with value `v` is blamed for, given that it has one. -/
def blame (tol v : α) : Defect :=
  if Scalar.isFinite v = false then .nonFinite else if tol < v then .infeasible else .notBinding

theorem not_stops_iff (x duals : Assignment α) (tol : α) (c : Constraint α) :
    ¬ Stops x duals tol c ↔
      ∃ v, c.violation x = .ok v ∧ defect? tol (duals.contains c.dualKey) v = none := by
  cases h : c.violation x with
  | error e => simp [Stops, h]
  | ok v => by_cases hf : Scalar.isFinite v <;> by_cases ht : tol < v <;> simp [Stops, h, defect?, hf, ht]

theorem defect?_of_stops {x duals : Assignment α} {tol v : α} {c : Constraint α}
    (h : Stops x duals tol c) (hv : c.violation x = .ok v) :
    defect? tol (duals.contains c.dualKey) v = some (blame tol v) := by
  obtain ⟨e, he⟩ | ⟨w, hw, cause⟩ := h
  · rw [hv] at he
    cases he
  · rw [hv] at hw
    cases hw
    by_cases hf : Scalar.isFinite v <;> by_cases ht : tol < v <;> simp_all [defect?, blame]

/-! ## A whole run -/

section Run

variable (x duals : Assignment α) (tol : α)

/-- Constraints that do not stop the test leave their events and records, and the test goes on. -/
theorem checkFrom_past (passed rest : List (Constraint α)) (i : ℕ)
    (h : ∀ c ∈ passed, ¬ Stops x duals tol c) :
    ∃ events records, records.length = passed.length ∧
      checkFrom x duals tol i (passed ++ rest) =
        ⟨events ++ (checkFrom x duals tol (i + passed.length) rest).events,
          (checkFrom x duals tol (i + passed.length) rest).outcome.map fun r => (r.1, records ++ r.2)⟩ := by
  induction passed generalizing i with
  | nil =>
    refine ⟨[], [], rfl, ?_⟩
    rw [List.nil_append, List.length_nil, Nat.add_zero]
    obtain ⟨events, outcome⟩ := checkFrom x duals tol i rest
    cases outcome <;> rfl
  | cons c passed ih =>
    obtain ⟨v, hv, hd⟩ := (not_stops_iff x duals tol c).mp (h c List.mem_cons_self)
    obtain ⟨events, records, length, run⟩ := ih (i + 1) fun d hd => h d (List.mem_cons_of_mem c hd)
    have position : i + 1 + passed.length = i + (c :: passed).length := by
      rw [List.length_cons]; omega
    refine ⟨.visited (recordOf duals i c v none) :: events, recordOf duals i c v none :: records,
      by rw [List.length_cons, List.length_cons, length], ?_⟩
    rw [List.cons_append, checkFrom_pass i _ hv hd, run, position]
    cases (checkFrom x duals tol (i + (c :: passed).length) rest).outcome <;> rfl

/-- What follows a constraint that stops the test changes neither events nor answer. -/
theorem checkFrom_upto (before rest : List (Constraint α)) (c : Constraint α) (i : ℕ)
    (h : Stops x duals tol c) :
    checkFrom x duals tol i (before ++ c :: rest) = checkFrom x duals tol i (before ++ [c]) := by
  induction before generalizing i with
  | nil =>
    cases hv : c.violation x with
    | error e => rw [List.nil_append, List.nil_append, checkFrom_error i _ hv, checkFrom_error i _ hv]
    | ok v =>
      have hd := defect?_of_stops h hv
      rw [List.nil_append, List.nil_append, checkFrom_defect i _ hv hd, checkFrom_defect i _ hv hd]
  | cons b before ih =>
    simp only [List.cons_append]
    cases hv : b.violation x with
    | error e => rw [checkFrom_error i _ hv, checkFrom_error i _ hv]
    | ok v =>
      cases hd : defect? tol (duals.contains b.dualKey) v with
      | some d => rw [checkFrom_defect i _ hv hd, checkFrom_defect i _ hv hd]
      | none => rw [checkFrom_pass i _ hv hd, checkFrom_pass i _ hv hd, ih (i + 1)]

end Run

/-! ## The first constraint that stops it -/

section FirstStop

variable {s : ConstraintSet α} {x duals : Assignment α} {tol : α} {i : ℕ} {c : Constraint α}

theorem FirstStop.take (h : FirstStop s x duals tol i c) :
    s.constraints.take (i + 1) = s.constraints.take i ++ [c] := by
  obtain ⟨below, at_i⟩ := List.getElem?_eq_some_iff.mp h.get
  rw [List.take_add_one, List.getElem?_eq_getElem below, at_i]
  rfl

theorem FirstStop.length_take (h : FirstStop s x duals tol i c) : (s.constraints.take i).length = i := by
  obtain ⟨below, _⟩ := List.getElem?_eq_some_iff.mp h.get
  rw [List.length_take]
  omega

theorem FirstStop.passed (h : FirstStop s x duals tol i c) :
    ∀ d ∈ s.constraints.take i, ¬ Stops x duals tol d := by
  intro d hd
  obtain ⟨j, hj, rfl⟩ := List.mem_iff_getElem.mp hd
  have below := h.length_take
  rw [List.getElem_take]
  exact h.before j _ (by omega) (List.getElem?_eq_getElem _)

/-- A list that begins like the constraints of `s` is looked at up to the same place. -/
theorem FirstStop.checkFrom_eq (h : FirstStop s x duals tol i c) {constraints : List (Constraint α)}
    (same : constraints.take (i + 1) = s.constraints.take (i + 1)) :
    checkFrom x duals tol 0 constraints = checkFrom x duals tol 0 (s.constraints.take i ++ [c]) := by
  have split : constraints = s.constraints.take i ++ c :: constraints.drop (i + 1) := by
    conv_lhs => rw [← List.take_append_drop (i + 1) constraints, same, h.take]
    rw [List.append_assoc, List.singleton_append]
  rw [split]
  exact checkFrom_upto x duals tol _ _ c 0 h.stops

theorem FirstStop.outcome_checkFrom (h : FirstStop s x duals tol i c) :
    ∃ records : List (TraceRecord α), records.length = i ∧
      (checkFrom x duals tol 0 s.constraints).outcome =
        (checkFrom x duals tol i [c]).outcome.map fun r => (r.1, records ++ r.2) := by
  obtain ⟨_, records, length, run⟩ := checkFrom_past x duals tol _ [c] 0 h.passed
  rw [h.length_take, Nat.zero_add] at run
  exact ⟨records, length.trans h.length_take, by rw [h.checkFrom_eq rfl, run]⟩

end FirstStop

end InequalityLayer.Kkt

/-! ## Reports -/

namespace InequalityLayer.ConstraintSet
open Kkt

variable {α : Type} [Scalar α]

theorem isSatisfied_eq (r : Report α) : r.isSatisfied = decide (r.status = .satisfied) := by
  unfold Report.isSatisfied
  cases r.status <;> simp

theorem outcome_isKkt (s : ConstraintSet α) (x duals : Assignment α) (options : Options α) :
    (s.isKkt x duals options.tol).outcome =
      (s.kktReport x duals options).outcome.map fun r => decide (r.status = .satisfied) := by
  rw [isKkt, Pass.outcome_map, outcome_kktReport, outcome_kktReport]
  cases (checkFrom x duals options.tol 0 s.constraints).outcome with
  | error e => rfl
  | ok r => exact congrArg Except.ok (isSatisfied_eq _)

/-- The report of the test and its yes-or-no answer. -/
theorem kktReport_verdict (s : ConstraintSet α) (built : s.Reachable) (x duals : Assignment α)
    (options : Options α) :
    ((∀ c ∈ s.constraints, ¬ Stops x duals options.tol c) →
      ∃ r, (s.kktReport x duals options).outcome = .ok r ∧ r.status = .satisfied ∧
        r.checked = s.size) ∧
    (∀ i c, FirstStop s x duals options.tol i c →
      (∀ e, (s.kktReport x duals options).outcome = .error e ↔ c.violation x = .error e) ∧
      (∀ v, c.violation x = .ok v →
        ∃ r, (s.kktReport x duals options).outcome = .ok r ∧
          r.status = .failed (blame options.tol v) i c.dualKey v ∧ r.checked = i + 1) ∧
      s.indexOf? c.dualKey = some i ∧
      ∀ t : ConstraintSet α, t.constraints.take (i + 1) = s.constraints.take (i + 1) →
        t.kktReport x duals options = s.kktReport x duals options) ∧
    (∀ e, (s.isKkt x duals options.tol).outcome = .error e ↔
      (s.kktReport x duals options).outcome = .error e) ∧
    ∀ r, (s.kktReport x duals options).outcome = .ok r →
      (s.isKkt x duals options.tol).outcome = .ok (decide (r.status = .satisfied)) := by
  refine ⟨fun none => ?_, fun i c first => ⟨fun e => ?_, fun v hv => ?_,
    built.indexOf?_dualKey first.get, fun t same => ?_⟩, fun e => ?_, fun r ok => ?_⟩
  · obtain ⟨_, records, length, run⟩ := checkFrom_past x duals options.tol s.constraints [] 0 none
    rw [List.append_nil] at run
    refine ⟨⟨.satisfied, records.length, if options.collectTrace then some records else .none⟩, ?_, rfl, length⟩
    rw [outcome_kktReport, run]
    simp only [checkFrom, Pass.pure_eq, Except.map, List.append_nil]
  · obtain ⟨records, _, run⟩ := first.outcome_checkFrom
    rw [outcome_kktReport, run]
    cases hv : c.violation x with
    | error e' => rw [checkFrom_error i [] hv]; simp [Except.map]
    | ok v =>
      rw [checkFrom_defect i [] hv (defect?_of_stops first.stops hv)]
      simp [Except.map]
  · obtain ⟨records, length, run⟩ := first.outcome_checkFrom
    rw [checkFrom_defect i [] hv (defect?_of_stops first.stops hv)] at run
    rw [outcome_kktReport, run]
    refine ⟨_, rfl, rfl, ?_⟩
    show (records ++ [_]).length = i + 1
    rw [List.length_append, length]
    rfl
  · exact kktReport_congr options ((first.checkFrom_eq same).trans (first.checkFrom_eq rfl).symm)
  · rw [outcome_isKkt]
    cases (s.kktReport x duals options).outcome <;> simp [Except.map]
  · rw [outcome_isKkt, ok]
    rfl

/-- Slack, then slack under an entry among the duals, then no value at all. -/
def slackThenFailing : ConstraintSet Float :=
  ofList [.level ⟨7⟩ (.ok (-1.0)), .level ⟨8⟩ (.ok (-0.5)),
    .level ⟨9⟩ (.error (.error (.missingVariable ⟨1⟩)))]

theorem firstStop_slackThenFailing :
    FirstStop slackThenFailing ∅ (Assignment.ofList [(⟨8⟩, [])]) 1e-6 1 (.level ⟨8⟩ (.ok (-0.5))) where
  get := rfl
  stops := .inr ⟨-0.5, rfl, .inr (.inr ⟨by decide, by decide⟩)⟩
  before j d below at_j := by
    obtain rfl : j = 0 := by omega
    obtain rfl : Constraint.level ⟨7⟩ (.ok (-1.0)) = d := Option.some.inj at_j
    exact (not_stops_iff _ _ _ _).mpr ⟨-1.0, rfl, by decide⟩

/-- The third constraint, which cannot be evaluated, is not reached. -/
theorem kktReport_verdict_notBinding :
    slackThenFailing.Reachable ∧
    ∃ r, (slackThenFailing.kktReport ∅ (Assignment.ofList [(⟨8⟩, [])]) {}).outcome = .ok r ∧
      r.status = .failed .notBinding 1 ⟨8⟩ (-0.5) ∧ r.checked = 2 := by
  have verdict := kktReport_verdict slackThenFailing (reachable_ofList _) ∅ (Assignment.ofList [(⟨8⟩, [])]) {}
  obtain ⟨_, ok, _⟩ := verdict.2.1 1 _ firstStop_slackThenFailing
  exact ⟨reachable_ofList _, ok (-0.5) rfl⟩

end InequalityLayer.ConstraintSet
