import InequalityLayer.Proofs.Constraint.Linearization
import InequalityLayer.Proofs.Constraint.Terms
import InequalityLayer.Proofs.Kkt.Merit
import InequalityLayer.Proofs.Kkt.Trace
import Mathlib

/-!
What the passes log. A pass visits the constraints from the first on, up to one that it does not get past
(`ReachesTo`), and logs one event of the finest level for each (`visits`); the curvature pass leaves out those
without a term. Main statements: `linearizeFrom_events`, `totalFrom_events` and `termsFrom_events`, the log of each
pass over a list; `checkFrom_passed`, the log of the optimality test up to the constraint that stops it; and
`passes_log`, the log of the four passes over a set with their summaries and warnings.
-/
namespace InequalityLayer
set_option autoImplicit false

variable {α : Type}

/-! ## How far a pass goes -/

/-- The first `k` elements have the property, and the one behind them, if there is one, does not. -/
structure ReachesTo {β : Type} (p : β → Prop) (l : List β) (k : ℕ) : Prop where
  le_length : k ≤ l.length
  before : ∀ j b, j < k → l[j]? = some b → p b
  stop : ∀ b, l[k]? = some b → ¬ p b

namespace ReachesTo

variable {β : Type} {p : β → Prop} {b : β} {l : List β} {k : ℕ}

theorem nil : ReachesTo p [] 0 := ⟨le_rfl, nofun, nofun⟩

theorem here (refused : ¬ p b) : ReachesTo p (b :: l) 0 where
  le_length := Nat.zero_le _
  before := nofun
  stop := by
    rintro _ ⟨⟩
    exact refused

theorem next (first : p b) (h : ReachesTo p l k) : ReachesTo p (b :: l) (k + 1) where
  le_length := Nat.succ_le_succ h.le_length
  before j c below at_j := by
    cases j with
    | zero =>
      cases at_j
      exact first
    | succ j => exact h.before j c (Nat.lt_of_succ_lt_succ below) at_j
  stop := h.stop

end ReachesTo

/-! ## Events of a pass -/

/-- The events about constraints, each with its position. -/
def visits (record : ℕ → Constraint α → TraceRecord α) (visited : List (Constraint α × ℕ)) : List (Event α) :=
  visited.map fun p => .visited (record p.2 p.1)

theorem level_of_mem_visits {record : ℕ → Constraint α → TraceRecord α} {visited : List (Constraint α × ℕ)}
    {event : Event α} (mem : event ∈ visits record visited) : event.level = .trace := by
  obtain ⟨_, _, rfl⟩ := List.mem_map.mp mem
  rfl

theorem level_ne_of_mem_visits {record : ℕ → Constraint α → TraceRecord α} {visited : List (Constraint α × ℕ)}
    {event : Event α} (mem : event ∈ visits record visited) : event.level ≠ .debug := by
  rw [level_of_mem_visits mem]
  exact nofun

/-- A pass logs `body` and, exactly if it succeeds, a summary behind it, the only event of its level. -/
structure Pass.Logs {β : Type} (p : Pass α β) (body : List (Event α)) (summary : β → Event α) : Prop where
  level_body : ∀ event ∈ body, event.level ≠ .debug
  level_summary : ∀ b, (summary b).level = .debug
  of_ok : ∀ b, p.outcome = .ok b → p.events = body ++ [summary b]
  of_error : ∀ e, p.outcome = .error e → p.events = body

/-- A pass over a list that is summed up at its end. -/
theorem Pass.logs_of_summary {β γ : Type} {p : Pass α β} (result : β → γ) (summary : γ → Event α)
    {record : ℕ → Constraint α → TraceRecord α} {visited : List (Constraint α × ℕ)}
    (events : p.events = visits record visited) (level_summary : ∀ c, (summary c).level = .debug) :
    (p >>= fun b => emit (summary (result b)) >>= fun _ => pure (result b)).Logs (visits record visited) summary := by
  have level_body : ∀ event ∈ visits record visited, event.level ≠ .debug := fun _ => level_ne_of_mem_visits
  cases outcome : p.outcome with
  | error e =>
    rw [bind_error _ _ e outcome]
    exact ⟨level_body, level_summary, nofun, fun _ _ => events⟩
  | ok b =>
    rw [bind_ok _ _ b outcome, events]
    refine ⟨level_body, level_summary, fun c ok => ?_, nofun⟩
    cases ok
    rfl

namespace ConstraintSet

/-! ## Passes over a list -/

section Lists

variable {x duals : Assignment α} (i : ℕ) (constraints : List (Constraint α))

theorem termsFrom_events :
    ∃ k, ReachesTo (fun c => ∃ answer, c.asked x duals = .ok answer) constraints k ∧
      (termsFrom x duals i constraints).events = visits (termRecord duals)
        (((constraints.take k).zipIdx i).filter fun p => (p.1.term? x duals).isSome) ∧
      ∀ terms, (termsFrom x duals i constraints).outcome = .ok terms →
        terms = (constraints.take k).filterMap fun c => c.term? x duals := by
  induction constraints generalizing i with
  | nil =>
    refine ⟨0, .nil, rfl, ?_⟩
    rintro _ ⟨⟩
    rfl
  | cons c rest ih =>
    cases answer : c.asked x duals with
    | error e =>
      rw [termsFrom_error i rest answer]
      exact ⟨0, .here (by simp [answer]), rfl, nofun⟩
    | ok term =>
      obtain ⟨k, reach, events, sum⟩ := ih (i + 1)
      have taken := Constraint.term?_of_asked answer
      refine ⟨k + 1, reach.next ⟨term, answer⟩, ?_⟩
      rw [List.take_succ_cons, List.zipIdx_cons]
      cases term with
      | none =>
        rw [termsFrom_silent i rest answer, List.filter_cons_of_neg (by simp [taken]),
          List.filterMap_cons_none (by exact taken)]
        exact ⟨events, sum⟩
      | some term =>
        rw [termsFrom_term i rest answer, List.filter_cons_of_pos (by simp [taken]), events,
          List.filterMap_cons_some (by exact taken)]
        refine ⟨rfl, fun terms ok => ?_⟩
        cases later : (termsFrom x duals (i + 1) rest).outcome with
        | error e =>
          rw [later] at ok
          cases ok
        | ok others =>
          rw [later] at ok
          cases ok
          rw [sum others later]

variable [Scalar α]

/-- The record of a constraint with the value `-b` of its inequality `a·δ ≤ b`. -/
def linearizeRecord (x : Assignment α) (i : ℕ) (c : Constraint α) : TraceRecord α :=
  { pass := "linearize", index := i, dualKey := c.dualKey
    violation := (c.inequality x).toOption.map fun q => -q.bound }

theorem linearizeFrom_events :
    ∃ k, ReachesTo (fun c => ∃ q, c.inequality x = .ok q) constraints k ∧
      (linearizeFrom x i constraints).events = visits (linearizeRecord x) ((constraints.take k).zipIdx i) := by
  induction constraints generalizing i with
  | nil => exact ⟨0, .nil, rfl⟩
  | cons c rest ih =>
    cases answer : c.inequality x with
    | error e =>
      rw [linearizeFrom_reject i rest answer]
      exact ⟨0, .here (by simp [answer]), rfl⟩
    | ok q =>
      obtain ⟨k, reach, events⟩ := ih (i + 1)
      have record : rowRecord i q = linearizeRecord x i c := by
        obtain ⟨J, _, rfl⟩ := Constraint.inequality_eq_ok_iff.mp answer
        rw [linearizeRecord, answer]
        rfl
      refine ⟨k + 1, reach.next ⟨q, answer⟩, ?_⟩
      rw [linearizeFrom_accept i rest answer, events, record]
      rfl

def meritRecord (x : Assignment α) (i : ℕ) (c : Constraint α) : TraceRecord α :=
  { pass := "merit", index := i, dualKey := c.dualKey, violation := (c.violation x).toOption }

theorem totalFrom_events (total : α) :
    ∃ k, ReachesTo (fun c => c.Evaluates x) constraints k ∧
      (totalFrom x i total constraints).events = visits (meritRecord x) ((constraints.take k).zipIdx i) := by
  induction constraints generalizing i total with
  | nil => exact ⟨0, .nil, rfl⟩
  | cons c rest ih =>
    cases value : c.violation x with
    | error e =>
      rw [totalFrom_error i total rest value]
      exact ⟨0, .here (by simp [Constraint.Evaluates, value]), rfl⟩
    | ok v =>
      cases finite : Scalar.isFinite v with
      | false =>
        rw [totalFrom_nonFinite i total rest value finite]
        exact ⟨0, .here (by simp [Constraint.Evaluates, value, finite]), rfl⟩
      | true =>
        obtain ⟨k, reach, events⟩ := ih (i + 1) (total + Scalar.abs v)
        refine ⟨k + 1, reach.next ⟨v, value, finite⟩, ?_⟩
        rw [totalFrom_finite i total rest value finite, events, List.take_succ_cons, List.zipIdx_cons]
        simp only [visits, List.map_cons, meritRecord, value]
        rfl

end Lists

end ConstraintSet

/-! ## The optimality test -/

namespace Kkt

/-- The warnings that a verdict comes with. -/
def Status.warnings : Status α → List (Event α)
  | satisfied => []
  | failed defect _ dualKey violation => defect.warnings dualKey violation

theorem Status.warnings_eq_nil {status : Status α}
    (finite : ∀ i dualKey v, status ≠ .failed .nonFinite i dualKey v) : status.warnings = [] := by
  obtain _ | ⟨_ | _ | _, i, dualKey, v⟩ := status
  case failed.nonFinite => cases finite i dualKey v rfl
  all_goals rfl

theorem level_of_mem_warnings {status : Status α} {event : Event α} (mem : event ∈ status.warnings) :
    event.level = .warning := by
  obtain _ | ⟨_ | _ | _, _, _, _⟩ := status
  case failed.nonFinite => rw [List.mem_singleton.mp mem]; rfl
  all_goals cases mem

theorem Status.level_summary (status : Status α) (checked : ℕ) (tol : α) :
    (status.summary checked tol).level = .debug := by
  cases status <;> rfl

variable [Scalar α] {s : ConstraintSet α} {x duals : Assignment α} {tol : α}

/-- The record of a constraint with its value and, if it has a defect, with a note of that. -/
def testRecord (x duals : Assignment α) (tol : α) (i : ℕ) (c : Constraint α) : TraceRecord α :=
  { pass := "kkt", index := i, dualKey := c.dualKey, violation := (c.violation x).toOption
    active := some (duals.contains c.dualKey)
    note := (c.violation x).toOption.bind fun v => (defect? tol (duals.contains c.dualKey) v).map Defect.note }

theorem testRecord_eq {c : Constraint α} {v : α} (value : c.violation x = .ok v) (i : ℕ) :
    testRecord x duals tol i c =
      recordOf duals i c v ((defect? tol (duals.contains c.dualKey) v).map Defect.note) := by
  rw [testRecord, value]
  rfl

/-- Constraints that do not stop the test leave one event each. -/
theorem checkFrom_passed (passed rest : List (Constraint α)) (i : ℕ) (h : ∀ c ∈ passed, ¬ Stops x duals tol c) :
    (checkFrom x duals tol i (passed ++ rest)).events =
      visits (testRecord x duals tol) (passed.zipIdx i) ++
        (checkFrom x duals tol (i + passed.length) rest).events := by
  induction passed generalizing i with
  | nil => rfl
  | cons c passed ih =>
    obtain ⟨first, others⟩ := List.forall_mem_cons.mp h
    obtain ⟨v, value, clean⟩ := (not_stops_iff x duals tol c).mp first
    have record : testRecord x duals tol i c = recordOf duals i c v none := by
      rw [testRecord_eq value, clean]
      rfl
    rw [List.cons_append, checkFrom_pass i _ value clean, ih (i + 1) others, List.length_cons, ← record,
      Nat.add_right_comm]
    rfl

/-- The events of a test, one for each constraint visited, with warnings right before the last. -/
def testEvents (x duals : Assignment α) (tol : α) (visited : List (Constraint α × ℕ)) (warnings : List (Event α)) :
    List (Event α) :=
  visits (testRecord x duals tol) visited.dropLast ++ warnings ++
    visits (testRecord x duals tol) visited.getLast?.toList

theorem testEvents_nil (visited : List (Constraint α × ℕ)) :
    testEvents x duals tol visited [] = visits (testRecord x duals tol) visited := by
  obtain rfl | ⟨earlier, last, rfl⟩ := visited.eq_nil_or_concat'
  · rfl
  · simp [testEvents, visits]

theorem testEvents_concat (earlier : List (Constraint α × ℕ)) (i : ℕ) (c : Constraint α) (warnings : List (Event α)) :
    testEvents x duals tol (earlier ++ [(c, i)]) warnings =
      visits (testRecord x duals tol) earlier ++ warnings ++ [.visited (testRecord x duals tol i c)] := by
  simp [testEvents, visits]

theorem level_of_mem_testEvents {visited : List (Constraint α × ℕ)} {status : Status α} {event : Event α}
    (mem : event ∈ testEvents x duals tol visited status.warnings) : event.level ≠ .debug := by
  rw [testEvents, List.mem_append, List.mem_append] at mem
  obtain (visit | warning) | visit := mem
  · exact level_ne_of_mem_visits visit
  · rw [level_of_mem_warnings warning]
    exact nofun
  · exact level_ne_of_mem_visits visit

theorem FirstStop.events_checkFrom {i : ℕ} {c : Constraint α} (first : FirstStop s x duals tol i c) :
    (checkFrom x duals tol 0 s.constraints).events =
      visits (testRecord x duals tol) (s.constraints.take i).zipIdx ++ (checkFrom x duals tol i [c]).events := by
  rw [first.checkFrom_eq rfl, checkFrom_passed _ [c] 0 first.passed, first.length_take, Nat.zero_add]

/-- The log of a test that is answered, and of one that ends at a constraint without a value. -/
theorem events_checkFrom (s : ConstraintSet α) (x duals : Assignment α) (tol : α) :
    (∀ status records, (checkFrom x duals tol 0 s.constraints).outcome = .ok (status, records) →
      records.length ≤ s.size ∧ (checkFrom x duals tol 0 s.constraints).events =
        testEvents x duals tol (s.constraints.take records.length).zipIdx status.warnings) ∧
    ∀ e, (checkFrom x duals tol 0 s.constraints).outcome = .error e →
      ∃ i c, FirstStop s x duals tol i c ∧ c.violation x = .error e ∧
        (checkFrom x duals tol 0 s.constraints).events =
          visits (testRecord x duals tol) (s.constraints.take i).zipIdx := by
  by_cases stopped : ∃ c ∈ s.constraints, Stops x duals tol c
  · obtain ⟨i, c, first⟩ := exists_firstStop stopped
    obtain ⟨earlier, length, run⟩ := first.outcome_checkFrom
    have events := first.events_checkFrom
    cases value : c.violation x with
    | error e =>
      rw [checkFrom_error i [] value] at run events
      rw [run, events]
      refine ⟨nofun, ?_⟩
      rintro _ ⟨⟩
      exact ⟨i, c, first, value, List.append_nil _⟩
    | ok v =>
      have defect := defect?_of_stops first.stops value
      have record : testRecord x duals tol i c = _ := testRecord_eq value i
      rw [defect] at record
      rw [checkFrom_defect i [] value defect] at run events
      rw [run, events]
      refine ⟨?_, nofun⟩
      rintro _ _ ⟨⟩
      rw [List.length_append, length, List.length_singleton, first.take, List.zipIdx_append, first.length_take]
      refine ⟨first.lt_size, ?_⟩
      rw [Nat.zero_add, List.zipIdx_singleton, testEvents_concat, record, List.append_assoc]
      rfl
  · push Not at stopped
    obtain ⟨_, records, length, run⟩ := checkFrom_past x duals tol s.constraints [] 0 stopped
    have events := checkFrom_passed s.constraints [] 0 stopped
    rw [List.append_nil] at run events
    rw [events]
    refine ⟨fun status records' ok => ?_, fun e failed => ?_⟩
    · rw [run] at ok
      cases ok
      rw [List.append_nil, length, List.take_length, Status.warnings, testEvents_nil]
      exact ⟨le_rfl, List.append_nil _⟩
    · rw [run] at failed
      cases failed

end Kkt

/-! ## A set -/

namespace ConstraintSet
open Kkt

variable [Scalar α]

/-- Each pass logs one event of the finest level for each constraint it gets past, in order and with its position:
the linearization with `-b`, the merit with the value, the correction with the first component of the dual entry
for each term it takes, and the test with the value for each constraint it counts, up to the first that stops it.
The test warns of a value that is not a finite number right before its last event. A summary ends the log of a pass
that succeeds; the merit has none. -/
theorem passes_log (s : ConstraintSet α) (x duals : Assignment α) (options : Options α) :
    (∃ k, ReachesTo (fun c => ∃ q, c.inequality x = .ok q) s.constraints k ∧
      (s.linearize x).Logs (visits (linearizeRecord x) (s.constraints.take k).zipIdx) fun m => .linearized m.size) ∧
    (∃ k, ReachesTo (fun c => c.Evaluates x) s.constraints k ∧
      (s.totalViolation x).events = visits (meritRecord x) (s.constraints.take k).zipIdx) ∧
    (∃ k, ReachesTo (fun c => ∃ answer, c.asked x duals = .ok answer) s.constraints k ∧
      (s.lagrangianCorrection x duals).Logs
        (visits (termRecord duals) ((s.constraints.take k).zipIdx.filter fun p => (p.1.term? x duals).isSome))
        (fun L => .curvatureSummed L.size s.size) ∧
      ∀ L, (s.lagrangianCorrection x duals).outcome = .ok L →
        L.terms = (s.constraints.take k).filterMap fun c => c.term? x duals) ∧
    ∃ k warnings, k ≤ s.size ∧
      (s.kktReport x duals options).Logs
        (testEvents x duals options.tol (s.constraints.take k).zipIdx warnings)
        (fun r => r.status.summary r.checked options.tol) ∧
      (∀ r, (s.kktReport x duals options).outcome = .ok r → r.checked = k ∧ LooksAt s x duals options.tol k ∧
        (∀ i dualKey v, r.status = .failed .nonFinite i dualKey v → 0 < k ∧ warnings = [.nonFinite dualKey v]) ∧
        ((∀ i dualKey v, r.status ≠ .failed .nonFinite i dualKey v) → warnings = [])) ∧
      ∀ e, (s.kktReport x duals options).outcome = .error e → warnings = [] ∧
        ∃ c, FirstStop s x duals options.tol k c ∧ c.violation x = .error e := by
  refine ⟨?_, totalFrom_events 0 s.constraints 0.0, ?_, ?_⟩
  · obtain ⟨k, reach, events⟩ := linearizeFrom_events 0 s.constraints
    exact ⟨k, reach, Pass.logs_of_summary LinearizedSet.mk (fun m => .linearized m.size) events fun _ => rfl⟩
  · obtain ⟨k, reach, events, sum⟩ := termsFrom_events 0 s.constraints
    exact ⟨k, reach, Pass.logs_of_summary LagrangianCorrection.mk (fun L => .curvatureSummed L.size s.size) events
      fun _ => rfl, fun L ok => sum L.terms (outcome_termsFrom_of_ok ok)⟩
  · obtain ⟨answered, failed⟩ := events_checkFrom s x duals options.tol
    cases run : (checkFrom x duals options.tol 0 s.constraints).outcome with
    | error e =>
      obtain ⟨k, c, first, value, events⟩ := failed e run
      rw [kktReport_of_error options run, events]
      refine ⟨k, [], first.lt_size.le, ⟨?_, fun r => r.status.level_summary _ _, ?_, fun _ _ => ?_⟩, ?_, ?_⟩
      · rw [testEvents_nil]
        exact fun _ => level_ne_of_mem_visits
      · rintro _ ⟨⟩
      · rw [testEvents_nil]
      · rintro _ ⟨⟩
      · rintro _ ⟨⟩
        exact ⟨rfl, c, first, value⟩
    | ok result =>
      obtain ⟨status, records⟩ := result
      obtain ⟨within, events⟩ := answered status records run
      rw [kktReport_of_ok options run, events]
      refine ⟨records.length, status.warnings, within,
        ⟨fun _ => level_of_mem_testEvents, fun r => r.status.level_summary _ _, ?_, ?_⟩, ?_, ?_⟩
      · rintro _ ⟨⟩
        rfl
      · rintro _ ⟨⟩
      · rintro _ ⟨⟩
        refine ⟨rfl, looksAt_length run, ?_, Status.warnings_eq_nil⟩
        rintro i dualKey v rfl
        exact ⟨List.length_pos_of_ne_nil (by rintro rfl; cases satisfied_of_no_records run), rfl⟩
      · rintro _ ⟨⟩

end ConstraintSet

end InequalityLayer
