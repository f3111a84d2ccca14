import InequalityLayer.Proofs.Binary64.Order
import InequalityLayer.Proofs.Kkt.Verdict
import Mathlib

/-!
Repeated tests. Verdicts are compared by bits and the records of a trace as numbers, so two reports of
one test agree unless a trace was kept and the test stopped at a NaN. Main statements: `records_agree_iff`,
what a run of the test leaves in its records, and `repeated_reports_agree_iff`.
-/
namespace InequalityLayer.Kkt
set_option autoImplicit false

/-! ## Verdicts -/

theorem Defect.tag_injective : Function.Injective Defect.tag := by
  intro d e same
  cases d <;> cases e <;> first | rfl | cases same

theorem Status.equivalence_agrees : Equivalence fun r s : Status Float => r.agrees s = true := by
  have parts : (fun r s : Status Float => r.agrees s = true) = fun r s => r.parts = s.parts := by
    funext r s
    rw [agrees, decide_eq_true_eq]
  rw [parts]
  exact ⟨fun _ => rfl, Eq.symm, Eq.trans⟩

theorem Status.failed_agrees_iff {d e : Defect} {i j : ℕ} {k l : Key} {v w : Float} :
    (failed d i k v).agrees (failed e j l w) = true ↔ d = e ∧ i = j ∧ k = l ∧ v.toBits = w.toBits := by
  simp only [agrees, decide_eq_true_eq, parts, Option.some.injEq, Prod.mk.injEq, Defect.tag_injective.eq_iff]

/-! ## Records -/

theorem isEqv_self_iff {β : Type} (f : β → β → Bool) (l : List β) :
    l.isEqv l f = true ↔ ∀ b ∈ l, f b b = true := by
  induction l with
  | nil => simp
  | cons b l ih => rw [List.isEqv_cons_cons, Bool.and_eq_true, ih, List.forall_mem_cons]

theorem recordOf_agrees_iff (duals : Assignment Float) (i : ℕ) (c : Constraint Float) (v : Float)
    (note : Option String) :
    (recordOf duals i c v note).agrees (recordOf duals i c v note) = true ↔ v ≠ Float.nan := by
  simp [TraceRecord.agrees, recordOf, TraceRecord.agreesOption, Scalar.agrees]

theorem ne_nan_of_defect? {tol v : Float} {active : Bool} {d : Option Defect}
    (h : defect? tol active v = d) (other : d ≠ some .nonFinite) : v ≠ Float.nan := by
  apply Binary64.ne_nan_of_isFinite
  by_contra infinite
  apply other
  rw [← h, defect?]
  simp [Scalar.isFinite, Bool.eq_false_of_not_eq_true infinite]

/-- A constraint that is passed, or has another defect than not being finite, has a number for its value; so the
records of a run agree with themselves unless its verdict is about a NaN. -/
theorem records_agree_iff (x duals : Assignment Float) (tol : Float) (constraints : List (Constraint Float))
    (i : ℕ) {status : Status Float} {records : List (TraceRecord Float)}
    (ok : (checkFrom x duals tol i constraints).outcome = .ok (status, records)) :
    (∀ r ∈ records, r.agrees r = true) ↔ ∀ j k, status ≠ .failed .nonFinite j k Float.nan := by
  induction constraints generalizing i records with
  | nil =>
    cases ok
    simp
  | cons c rest ih =>
    obtain ⟨v, _, ⟨d, hd, rfl, rfl, _⟩ | ⟨hd, others, later, rfl, _⟩⟩ := checkFrom_cons_cases i rest ok
    · rw [List.forall_mem_singleton, recordOf_agrees_iff]
      by_cases kind : d = .nonFinite
      · simp [kind]
      · have number := ne_nan_of_defect? hd (by simpa using kind)
        simp [number]
    · have number := ne_nan_of_defect? hd (by simp)
      rw [List.forall_mem_cons, ih (i + 1) later, recordOf_agrees_iff]
      exact and_iff_right number

end InequalityLayer.Kkt

/-! ## Reports -/

namespace InequalityLayer.ConstraintSet
open Kkt

theorem report_agrees_self_iff (s : ConstraintSet Float) (x duals : Assignment Float)
    (options : Options Float) {r : Report Float} (ok : (s.kktReport x duals options).outcome = .ok r) :
    r.agrees r = true ↔
      (options.collectTrace = true → ∀ j k, r.status ≠ .failed .nonFinite j k Float.nan) := by
  rw [outcome_kktReport] at ok
  cases run : (checkFrom x duals options.tol 0 s.constraints).outcome with
  | error e =>
    rw [run] at ok
    cases ok
  | ok result =>
    rw [run] at ok
    cases ok
    have records := records_agree_iff x duals options.tol s.constraints 0 run
    have verdict : result.1.agrees result.1 = true := Status.equivalence_agrees.refl _
    cases options.collectTrace with
    | false => simp [Report.agrees, verdict]
    | true => simpa [Report.agrees, verdict, isEqv_self_iff] using records

/-- Two reports of one test agree unless a trace was kept and the verdict is about a NaN; verdicts are
compared by kind, position, dual key and the bits of the violation. -/
theorem repeated_reports_agree_iff (s : ConstraintSet Float) (x duals : Assignment Float)
    (options : Options Float) (first again : Report Float)
    (ok : (s.kktReport x duals options).outcome = .ok first)
    (ok_again : (s.kktReport x duals options).outcome = .ok again) :
    (first.agrees again = true ↔
      (options.collectTrace = true → ∀ j k, first.status ≠ .failed .nonFinite j k Float.nan)) ∧
    Equivalence (fun r s : Status Float => r.agrees s = true) ∧
    ∀ (d e : Defect) (i j : ℕ) (k l : Key) (v w : Float),
      (Status.failed d i k v).agrees (.failed e j l w) = true ↔
        d = e ∧ i = j ∧ k = l ∧ v.toBits = w.toBits := by
  obtain rfl : first = again := Except.ok.inj (ok.symm.trans ok_again)
  exact ⟨report_agrees_self_iff s x duals options ok, Status.equivalence_agrees,
    fun _ _ _ _ _ _ _ _ => Status.failed_agrees_iff⟩

theorem repeated_reports_agree_infinite :
    ∃ r, ((ofList [.level ⟨7⟩ (.ok Float.inf)]).kktReport ∅ ∅ { collectTrace := true }).outcome = .ok r ∧
      r.agrees r = true := by
  refine ⟨_, rfl, ?_⟩
  apply (repeated_reports_agree_iff (ofList [.level ⟨7⟩ (.ok Float.inf)]) ∅ ∅ { collectTrace := true }
    _ _ rfl rfl).1.mpr
  intro _ j k same
  exact absurd (Status.failed.inj same).2.2.2 (by decide)

/-- With a trace, two reports about the same NaN differ. -/
theorem reports_about_nan_differ :
    ¬ ∀ (s : ConstraintSet Float) (x duals : Assignment Float) (options : Options Float)
      (first again : Report Float), s.Reachable →
      (s.kktReport x duals options).outcome = .ok first →
      (s.kktReport x duals options).outcome = .ok again → first.agrees again = true := by
  intro agree
  have same := agree (ofList [.level ⟨7⟩ (.ok Float.nan)]) ∅ ∅ { collectTrace := true } _ _
    (reachable_ofList _) rfl rfl
  exact absurd same (by decide)

end InequalityLayer.ConstraintSet
