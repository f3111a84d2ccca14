import InequalityLayer.Proofs.Binary64.Comparison
import InequalityLayer.Proofs.Constraint.Linearization
import InequalityLayer.Proofs.Constraint.Smooth
import InequalityLayer.Proofs.Kkt.Runs
import InequalityLayer.Proofs.Linear.Feasibility
import Mathlib

/-!
The linearized set where it was linearized. A step that moves no variable meets no block, so an inequality
is left with its right-hand side, `0 - (-g)` for a smooth constraint of value `g` (`SmoothConstraint.error_still`).
No comparison tells that from `g`, and the test for feasibility and the optimality test without active
constraints end alike: `isFeasible_still_iff`.
-/
namespace InequalityLayer
set_option autoImplicit false

/-! ## One inequality -/

section Still

variable {α : Type} {δ : Assignment α}

theorem JacobianFactor.overlap_still (J : JacobianFactor α) (still : ∀ key ∈ J.keys, δ.contains key = false) :
    J.overlap δ = .ok [] := by
  have alone : ∀ term ∈ J.terms, J.meet δ term = .ok none := by
    intro term mem
    have absent := still term.1 (List.mem_map_of_mem mem)
    rw [Assignment.contains_eq_isSome, Option.isSome_eq_false_iff, Option.isNone_iff_eq_none] at absent
    rw [meet, absent]
  have met : J.terms.mapM (J.meet δ) = .ok (J.terms.map fun _ => none) :=
    mapM_eq_ok_iff.mpr (List.forall₂_map_right_iff.mpr (List.forall₂_same.mpr alone))
  unfold overlap
  rw [met]
  simp

theorem SmoothConstraint.error_still [Scalar α] (c : SmoothConstraint α) {x : Assignment α}
    {q : LinearInequality α} (linear : c.toConstraint.inequality x = .ok q)
    (still : ∀ key ∈ c.layout.keys, δ.contains key = false) :
    ∃ v, c.violation x = .ok v ∧ q.error δ = .ok (0.0 - -v) := by
  obtain ⟨y, stacked, rfl⟩ := c.exists_stack_of_inequality linear
  refine ⟨c.value y, by rw [c.violation_eq, stacked]; rfl, ?_⟩
  have keys : (c.rowAt y).keys = c.layout.keys := Layout.keys_split c.layout _
  have overlap : (c.rowAt y).overlap δ = .ok [] := JacobianFactor.overlap_still _ (keys ▸ still)
  unfold LinearInequality.error LinearInequality.product
  rw [overlap]
  rfl

end Still

/-! ## Both tests -/

namespace ConstraintSet
open Kkt

section Alike

variable {α : Type} [Scalar α] {s : ConstraintSet α} {x δ duals : Assignment α} {tol : α} {m : LinearizedSet α}

/-- A constraint stops the one test exactly if its inequality is above the tolerance of the other. -/
def Alike (s : ConstraintSet α) (x δ duals : Assignment α) (tol : α) : Prop :=
  ∀ c ∈ s.constraints, ∀ q, c.inequality x = .ok q → ∃ e, q.error δ = .ok e ∧ (Stops x duals tol c ↔ tol < e)

theorem Alike.isFeasible_eq_true (alike : s.Alike x δ duals tol) (linear : (s.linearize x).outcome = .ok m)
    (passed : ∀ c ∈ s.constraints, ¬ Stops x duals tol c) : m.isFeasible δ tol = .ok true := by
  unfold LinearizedSet.isFeasible
  rw [LinearizedSet.allWithin_eq_true_iff]
  intro q mem
  obtain ⟨i, at_i⟩ := List.mem_iff_getElem?.mp mem
  obtain ⟨c, get, model⟩ := (get?_linearize linear i).2 q at_i
  have among : c ∈ s.constraints := List.mem_of_getElem? get
  obtain ⟨e, error, above⟩ := alike c among q model
  exact ⟨e, error, fun less => passed c among (above.mpr less)⟩

theorem Alike.firstAbove (alike : s.Alike x δ duals tol) (linear : (s.linearize x).outcome = .ok m) {i : ℕ}
    {c : Constraint α} (first : FirstStop s x duals tol i c) : ∃ q, m.FirstAbove δ tol i q := by
  obtain ⟨q, get, model⟩ := (get?_linearize linear i).1 c first.get
  obtain ⟨e, error, above⟩ := alike c (List.mem_of_getElem? first.get) q model
  refine ⟨q, get, ⟨e, error, above.mp first.stops⟩, fun j p below at_j => ?_⟩
  obtain ⟨d, get_d, model_d⟩ := (get?_linearize linear j).2 p at_j
  obtain ⟨f, error_d, above_d⟩ := alike d (List.mem_of_getElem? get_d) p model_d
  exact ⟨f, error_d, fun less => first.before j d below get_d (above_d.mpr less)⟩

end Alike

/-- For an inactive constraint with a finite value the test asks no more than whether it is above the
tolerance. -/
theorem stops_inactive_iff {x duals : Assignment Float} {tol v : Float} {c : Constraint Float}
    (value : c.violation x = .ok v) (finite : v.isFinite = true) (inactive : duals.contains c.dualKey = false) :
    Stops x duals tol c ↔ tol < v := by
  unfold Stops
  simp [value, Scalar.isFinite, finite, inactive]

/-- So where it is the first to stop the test, it is reported as infeasible. -/
theorem status_of_inactive {s : ConstraintSet Float} {x duals : Assignment Float} {options : Options Float}
    {i : ℕ} {c : Constraint Float} {v : Float} (first : FirstStop s x duals options.tol i c)
    (value : c.violation x = .ok v) (finite : v.isFinite = true) (inactive : duals.contains c.dualKey = false) :
    ∃ r, (s.kktReport x duals options).outcome = .ok r ∧ r.status = .failed .infeasible i c.dualKey v := by
  have above : options.tol < v := (stops_inactive_iff value finite inactive).mp first.stops
  have blamed : blame options.tol v = .infeasible := by simp [blame, Scalar.isFinite, finite, above]
  have verdict := first.verdict_eq
  rw [value] at verdict
  obtain ⟨r, ok, status, _⟩ := map_verdict_eq_ok_iff.mp verdict
  exact ⟨r, ok, blamed ▸ status⟩

theorem alike_still {s : ConstraintSet Float} (smooth : ∀ c ∈ s.constraints, c.IsSmooth)
    {x δ duals : Assignment Float} (tol : Float)
    (finite : ∀ c ∈ s.constraints, ∀ v, c.violation x = .ok v → v.isFinite = true)
    (still : ∀ c ∈ s.constraints, ∀ key ∈ c.keys, δ.contains key = false)
    (inactive : ∀ k ∈ s.dualKeys, duals.contains k = false) : s.Alike x δ duals tol := by
  intro c mem q model
  obtain ⟨f, rfl⟩ := smooth c mem
  obtain ⟨v, value, error⟩ := f.error_still model (still _ mem)
  have bounded := finite _ mem v value
  refine ⟨_, error, ?_⟩
  rw [stops_inactive_iff value bounded (inactive _ (List.mem_map_of_mem mem)),
    Binary64.lt_zero_sub_neg_iff tol bounded]

/-- At a step that moves no variable the linearized set is feasible exactly if the test without active
constraints is satisfied. Otherwise both end at the same constraint, the first above the tolerance. -/
theorem isFeasible_still_iff (s : ConstraintSet Float) (smooth : ∀ c ∈ s.constraints, c.IsSmooth)
    (x δ duals : Assignment Float) (options : Options Float) {m : LinearizedSet Float}
    (linear : (s.linearize x).outcome = .ok m)
    (finite : ∀ c ∈ s.constraints, ∀ v, c.violation x = .ok v → v.isFinite = true)
    (still : ∀ c ∈ s.constraints, ∀ key ∈ c.keys, δ.contains key = false)
    (inactive : ∀ k ∈ s.dualKeys, duals.contains k = false) :
    ∃ r, (s.kktReport x duals options).outcome = .ok r ∧
      (m.isFeasible δ options.tol = .ok true ↔ r.status = .satisfied) ∧
      (r.status ≠ .satisfied → m.isFeasible δ options.tol = .ok false ∧
        ∃ i c q v, s.get? i = some c ∧ c.violation x = .ok v ∧ m.FirstAbove δ options.tol i q ∧
          r.status = .failed .infeasible i c.dualKey v) := by
  have alike := alike_still smooth options.tol finite still inactive
  by_cases stopped : ∃ c ∈ s.constraints, Stops x duals options.tol c
  · obtain ⟨i, c, first⟩ := exists_firstStop stopped
    obtain ⟨q, above⟩ := alike.firstAbove linear first
    have mem : c ∈ s.constraints := List.mem_of_getElem? first.get
    obtain ⟨p, _, model⟩ := (get?_linearize linear i).1 c first.get
    obtain ⟨f, rfl⟩ := smooth c mem
    obtain ⟨v, value, _⟩ := f.error_still model (still _ mem)
    obtain ⟨r, ok, status⟩ := status_of_inactive first value (finite _ mem v value)
      (inactive _ (List.mem_map_of_mem mem))
    refine ⟨r, ok, ?_, fun _ => ⟨above.isFeasible_eq_false, i, _, q, v, first.get, value, above, status⟩⟩
    rw [above.isFeasible_eq_false, status]
    simp
  · push Not at stopped
    obtain ⟨r, ok, status, _⟩ := map_verdict_eq_ok_iff.mp (verdict_of_not_stops stopped)
    exact ⟨r, ok, iff_of_true (alike.isFeasible_eq_true linear stopped) status, fun failed => absurd status failed⟩

/-- The bound `y ≤ limit` on one variable. -/
def atMost (key dualKey : Key) (limit : Float) : SmoothConstraint Float where
  layout := [(key, 1)]
  dualKey
  value y := y.headD 0.0 - limit
  gradient _ _ := [1.0]

/-- Three bounds on a variable at `1`, the first of which holds. -/
def threeBounds : ConstraintSet Float :=
  ofList [(atMost ⟨1⟩ ⟨7⟩ 2.0).toConstraint, (atMost ⟨1⟩ ⟨8⟩ 0.5).toConstraint, (atMost ⟨1⟩ ⟨9⟩ 0.25).toConstraint]

def atOne : Assignment Float := .ofList [(⟨1⟩, [1.0])]

/-- A step for a variable of no bound. -/
def elsewhere : Assignment Float := .ofList [(⟨2⟩, [3.0])]

/-- A multiplier of no bound. -/
def unowned : Assignment Float := .ofList [(⟨6⟩, [1.0])]

/-- Both tests end at the second bound. -/
theorem isFeasible_still_iff_threeBounds :
    ∃ m r, (threeBounds.linearize atOne).outcome = .ok m ∧
      (threeBounds.kktReport atOne unowned {}).outcome = .ok r ∧ r.status = .failed .infeasible 1 ⟨8⟩ 0.5 ∧
      m.isFeasible elsewhere 1e-6 = .ok false := by
  have constraints : threeBounds.constraints = [_, _, _] := rfl
  have smooth : ∀ c ∈ threeBounds.constraints, c.IsSmooth := by
    rw [constraints]
    simp only [List.forall_mem_cons]
    exact ⟨⟨_, rfl⟩, ⟨_, rfl⟩, ⟨_, rfl⟩, nofun⟩
  have finite : ∀ c ∈ threeBounds.constraints, ∀ v, c.violation atOne = .ok v → v.isFinite = true := by
    rw [constraints]
    simp only [List.forall_mem_cons]
    refine ⟨?_, ?_, ?_, nofun⟩ <;> (intro v value; cases value; decide)
  have still : ∀ c ∈ threeBounds.constraints, ∀ key ∈ c.keys, elsewhere.contains key = false := by
    rw [constraints]
    simp only [List.forall_mem_cons]
    refine ⟨?_, ?_, ?_, nofun⟩ <;> (intro key mem; cases List.mem_singleton.mp mem; rfl)
  have linear : ∃ m, (threeBounds.linearize atOne).outcome = .ok m := ⟨_, rfl⟩
  obtain ⟨m, linear⟩ := linear
  obtain ⟨r, ok, _, otherwise⟩ :=
    isFeasible_still_iff threeBounds smooth atOne elsewhere unowned {} linear finite still (by decide)
  have report : (threeBounds.kktReport atOne unowned {}).outcome =
      .ok ⟨.failed .infeasible 1 ⟨8⟩ 0.5, 2, none⟩ := rfl
  rw [report] at ok
  cases ok
  exact ⟨m, _, linear, report, rfl, (otherwise nofun).1⟩

end ConstraintSet

end InequalityLayer
