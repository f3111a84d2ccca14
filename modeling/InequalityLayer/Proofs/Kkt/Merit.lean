import InequalityLayer.Proofs.Binary64.Comparison
import InequalityLayer.Proofs.Constraint.Merit
import InequalityLayer.Proofs.Kkt.Runs
import InequalityLayer.Proofs.Kkt.Tolerance
import Mathlib

/-!
The merit value against the test. Each magnitude is at most the running total it was added to, rounded as the
total is (`le_runningTotal`), so a tolerance that bounds the merit is met by every constraint, active or not
(`satisfied_of_totalViolation_le`). With no bound at all the test still has to evaluate what the merit adds up,
and the two end at the same constraint with the same cause (`totalViolation_agrees`).
-/
namespace InequalityLayer
set_option autoImplicit false

/-! ## A merit below the tolerance -/

namespace ConstraintSet
open Binary64

open Kkt in
/-- If the merit is at most the tolerance, no constraint stops the test, whichever are active, and it is satisfied. -/
theorem satisfied_of_totalViolation_le (s : ConstraintSet Float) (x : Assignment Float) (t : Float)
    (options : Options Float) (ok : (s.totalViolation x).outcome = .ok t) (le : t ≤ options.tol)
    (duals : Assignment Float) :
    ∃ r, (s.kktReport x duals options).outcome = .ok r ∧ r.status = .satisfied ∧ r.checked = s.size := by
  obtain ⟨violations, answers, finite, rfl⟩ := (outcome_totalViolation_eq_ok_iff s x t).mp ok
  obtain ⟨_, magnitudes⟩ := le_runningTotal (by decide : (0.0 : Float) ≤ 0.0) finite
  rw [← map_verdict_eq_ok_iff]
  apply verdict_of_not_stops
  intro c mem
  obtain ⟨v, among, value⟩ := exists_answer_of_mem answers mem
  have magnitude : v.abs ≤ options.tol := le_trans (magnitudes v among) le
  rw [not_stops_iff_le]
  exact ⟨v, value, finite v among, .inl (le_trans (le_abs (finite v among)) magnitude), fun _ => .inl magnitude⟩

/-- Two magnitudes whose sum is rounded up. -/
def tenths : ConstraintSet Float := ofList [.level ⟨7⟩ (.ok (-0.1)), .level ⟨8⟩ (.ok 0.2)]

theorem satisfied_of_totalViolation_le_tenths :
    (tenths.totalViolation ∅).outcome = .ok (0.0 + 0.1 + 0.2) ∧ (0.0 + 0.1 + 0.2 : Float) ≤ 0.30000000000000004 ∧
    ∃ r, (tenths.kktReport ∅ (.ofList [(⟨7⟩, [1.0]), (⟨8⟩, [])]) { tol := 0.30000000000000004 }).outcome = .ok r ∧
      r.status = .satisfied ∧ r.checked = 2 := by
  have merit : (tenths.totalViolation ∅).outcome = .ok (0.0 + 0.1 + 0.2) := rfl
  have bound : (0.0 + 0.1 + 0.2 : Float) ≤ 0.30000000000000004 := by decide
  exact ⟨merit, bound, satisfied_of_totalViolation_le tenths ∅ _ { tol := 0.30000000000000004 } merit bound _⟩

end ConstraintSet

/-! ## Constraints without a finite value -/

section Evaluates

variable {α : Type} [Scalar α]

def Constraint.Evaluates (c : Constraint α) (x : Assignment α) : Prop :=
  ∃ v, c.violation x = .ok v ∧ Scalar.isFinite v = true

/-- The first constraint without a finite value, and its position. -/
structure ConstraintSet.FirstUnusable (s : ConstraintSet α) (x : Assignment α) (i : ℕ) (c : Constraint α) :
    Prop where
  get : s.get? i = some c
  unusable : ¬ c.Evaluates x
  before : ∀ j d, j < i → s.get? j = some d → d.Evaluates x

/-- Constraints with a finite value are added up and passed. -/
theorem ConstraintSet.totalFrom_past {x : Assignment α} (passed rest : List (Constraint α)) (i : ℕ) (total : α)
    (h : ∀ c ∈ passed, c.Evaluates x) :
    ∃ total', (totalFrom x i total (passed ++ rest)).outcome =
      (totalFrom x (i + passed.length) total' rest).outcome := by
  induction passed generalizing i total with
  | nil => exact ⟨total, rfl⟩
  | cons c passed ih =>
    obtain ⟨⟨v, value, finite⟩, others⟩ := List.forall_mem_cons.mp h
    obtain ⟨total', run⟩ := ih (i + 1) (total + Scalar.abs v) others
    refine ⟨total', ?_⟩
    rw [List.cons_append, totalFrom_finite i total _ value finite, run, List.length_cons, Nat.add_right_comm]
    rfl

end Evaluates

/-! ## Without a bound -/

namespace Kkt

/-- The test that asks for finite values and no more. -/
def Options.unbounded (collectTrace : Bool) : Options Float := { tol := Float.inf, collectTrace }

theorem not_stops_inf_iff (x duals : Assignment Float) (c : Constraint Float) :
    ¬ Stops x duals Float.inf c ↔ c.Evaluates x := by
  rw [not_stops_iff_le]
  refine exists_congr fun v => and_congr_right fun _ => ⟨fun h => h.1, fun finite => ?_⟩
  have number : v ≠ Float.nan := Binary64.ne_nan_of_isFinite finite
  have size : v.abs ≠ Float.nan := Binary64.ne_nan_of_isFinite ((Binary64.isFinite_abs v).trans finite)
  exact ⟨finite, .inl (Binary64.le_inf number), fun _ => .inl (Binary64.le_inf size)⟩

theorem firstStop_inf_iff {s : ConstraintSet Float} {x : Assignment Float} (duals : Assignment Float) {i : ℕ}
    {c : Constraint Float} : FirstStop s x duals Float.inf i c ↔ s.FirstUnusable x i c := by
  have same (d : Constraint Float) := not_stops_inf_iff x duals d
  constructor
  · rintro ⟨get, stops, before⟩
    exact ⟨get, fun usable => (same c).mpr usable stops, fun j d below at_j => (same d).mp (before j d below at_j)⟩
  · rintro ⟨get, unusable, before⟩
    exact ⟨get, not_not.mp fun passed => unusable ((same c).mp passed),
      fun j d below at_j => (same d).mpr (before j d below at_j)⟩

end Kkt

namespace ConstraintSet
open Kkt

variable {s : ConstraintSet Float} {x : Assignment Float} {i : ℕ} {c : Constraint Float}

theorem FirstUnusable.isFinite_eq_false (h : s.FirstUnusable x i c) {v : Float} (value : c.violation x = .ok v) :
    Scalar.isFinite v = false :=
  Bool.eq_false_of_not_eq_true fun finite => h.unusable ⟨v, value, finite⟩

theorem FirstUnusable.outcome_totalViolation (h : s.FirstUnusable x i c) :
    (s.totalViolation x).outcome =
      c.violation x >>= fun v => .error (.error (.nonFiniteViolation c.dualKey v)) := by
  have first := (firstStop_inf_iff ∅).mpr h
  have evaluate : ∀ d ∈ s.constraints.take i, d.Evaluates x := fun d mem =>
    (not_stops_inf_iff x ∅ d).mp (first.passed d mem)
  have split : s.constraints = s.constraints.take i ++ c :: s.constraints.drop (i + 1) := by
    rw [← List.singleton_append, ← List.append_assoc, ← first.take, List.take_append_drop]
  obtain ⟨total, run⟩ := totalFrom_past _ (c :: s.constraints.drop (i + 1)) 0 0.0 evaluate
  rw [← split] at run
  unfold totalViolation
  rw [run]
  cases value : c.violation x with
  | error e => rw [totalFrom_error _ _ _ value]; rfl
  | ok v => rw [totalFrom_nonFinite _ _ _ value (h.isFinite_eq_false value)]; rfl

theorem FirstUnusable.verdict_eq (h : s.FirstUnusable x i c) (duals : Assignment Float) (trace : Bool) :
    (s.kktReport x duals (.unbounded trace)).outcome.map Report.verdict =
      (c.violation x).map fun v => (.failed .nonFinite i c.dualKey v, i + 1) := by
  have first : FirstStop s x duals (Options.unbounded trace).tol i c := (firstStop_inf_iff duals).mpr h
  rw [first.verdict_eq]
  cases value : c.violation x with
  | error e => rfl
  | ok v => simp [Except.map, blame, h.isFinite_eq_false value]

theorem verdict_of_evaluates (h : ∀ c ∈ s.constraints, c.Evaluates x) (duals : Assignment Float) (trace : Bool) :
    (s.kktReport x duals (.unbounded trace)).outcome.map Report.verdict = .ok (.satisfied, s.size) :=
  verdict_of_not_stops fun c mem => (not_stops_inf_iff x duals c).mpr (h c mem)

theorem totalViolation_of_evaluates (h : ∀ c ∈ s.constraints, c.Evaluates x) :
    ∃ t, (s.totalViolation x).outcome = .ok t := by
  obtain ⟨total, run⟩ := totalFrom_past s.constraints [] 0 0.0 h
  rw [List.append_nil] at run
  exact ⟨total, run⟩

theorem evaluates_or_firstUnusable (s : ConstraintSet Float) (x : Assignment Float) :
    (∀ c ∈ s.constraints, c.Evaluates x) ∨ ∃ i c, s.FirstUnusable x i c := by
  by_cases h : ∀ c ∈ s.constraints, c.Evaluates x
  · exact .inl h
  · push Not at h
    obtain ⟨c, mem, unusable⟩ := h
    have stops : Stops x ∅ Float.inf c := not_not.mp fun passed => unusable ((not_stops_inf_iff x ∅ c).mp passed)
    obtain ⟨i, d, first⟩ := exists_firstStop ⟨c, mem, stops⟩
    exact .inr ⟨i, d, (firstStop_inf_iff ∅).mp first⟩

/-- Without a bound the test and the merit end at the same constraint, the first without a finite value, and
name the same cause; where there is none both go through. Which constraints are active makes no difference. -/
theorem totalViolation_agrees (s : ConstraintSet Float) (x duals : Assignment Float) (trace : Bool) :
    (∀ e, (s.kktReport x duals (.unbounded trace)).outcome = .error e →
      (s.totalViolation x).outcome = .error e ∧ ∃ i c, s.FirstUnusable x i c ∧ c.violation x = .error e) ∧
    (∀ r, (s.kktReport x duals (.unbounded trace)).outcome = .ok r →
      (∃ i c v, s.FirstUnusable x i c ∧ c.violation x = .ok v ∧
        r.status = .failed .nonFinite i c.dualKey v ∧ r.checked = i + 1 ∧
        (s.totalViolation x).outcome = .error (.error (.nonFiniteViolation c.dualKey v))) ∨
      r.status = .satisfied ∧ r.checked = s.size ∧ ∃ t, (s.totalViolation x).outcome = .ok t) ∧
    ∀ other, (s.kktReport x other (.unbounded trace)).outcome.map Report.verdict =
      (s.kktReport x duals (.unbounded trace)).outcome.map Report.verdict := by
  obtain evaluate | ⟨i, c, first⟩ := evaluates_or_firstUnusable s x
  · have verdict := verdict_of_evaluates evaluate duals trace
    refine ⟨fun e failed => ?_, fun r ok => .inr ?_, fun other => ?_⟩
    · rw [failed] at verdict
      cases verdict
    · rw [ok] at verdict
      obtain ⟨status, checked⟩ := Prod.mk.inj (Except.ok.inj verdict)
      exact ⟨status, checked, totalViolation_of_evaluates evaluate⟩
    · rw [verdict, verdict_of_evaluates evaluate other trace]
  · have verdict := first.verdict_eq duals trace
    have merit := first.outcome_totalViolation
    refine ⟨fun e failed => ?_, fun r ok => .inl ?_, fun other => ?_⟩
    · rw [failed] at verdict
      cases value : c.violation x with
      | ok v =>
        rw [value] at verdict
        cases verdict
      | error e' =>
        rw [value] at verdict merit
        cases verdict
        exact ⟨merit, i, c, first, value⟩
    · rw [ok] at verdict
      cases value : c.violation x with
      | error e =>
        rw [value] at verdict
        cases verdict
      | ok v =>
        rw [value] at verdict merit
        obtain ⟨status, checked⟩ := Prod.mk.inj (Except.ok.inj verdict)
        exact ⟨i, c, v, first, value, status, checked, merit⟩
    · rw [verdict, first.verdict_eq other trace]

end ConstraintSet

end InequalityLayer
