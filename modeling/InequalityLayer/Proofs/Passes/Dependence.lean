import InequalityLayer.Constraint.Merit
import InequalityLayer.Proofs.Constraint.Terms
import InequalityLayer.Proofs.Kkt.Verdict
import Mathlib

/-!
What the passes read. A smooth constraint looks at the coordinates of its own variables (`stack_congr`), and of the
duals at nothing but the first component of its own entry (`asked_congr`). A pass reads no more than its constraints
do (`linearizeFrom_congr`, `totalFrom_congr`, `termsFrom_congr`), the optimality test in addition which of them
have an entry (`checkFrom_congr`). Main statement: `passes_congr`, two runs over inputs that agree there are one.
-/
namespace InequalityLayer
set_option autoImplicit false

variable {α : Type} {x y duals other : Assignment α}

/-! ## Coordinates -/

theorem Layout.stackPoint_congr {L : Layout} (same : ∀ k ∈ L.keys, x.get? k = y.get? k) :
    L.stackPoint x = L.stackPoint y := by
  have parts : ∀ entry ∈ L, pointPart x entry = pointPart y entry := by
    intro entry mem
    unfold pointPart
    rw [same entry.1 (List.mem_map_of_mem mem)]
  unfold stackPoint
  rw [mapM_congr parts]

namespace SmoothConstraint

variable [Scalar α] {f : SmoothConstraint α}

theorem stack_congr (same : ∀ k ∈ f.layout.keys, x.get? k = y.get? k) : f.stack x = f.stack y := by
  unfold stack
  rw [Layout.stackPoint_congr same]

theorem violation_congr (same : ∀ k ∈ f.layout.keys, x.get? k = y.get? k) : f.violation x = f.violation y := by
  rw [f.violation_eq, f.violation_eq, stack_congr same]

theorem inequality_congr (same : ∀ k ∈ f.layout.keys, x.get? k = y.get? k) :
    f.toConstraint.inequality x = f.toConstraint.inequality y := by
  rw [f.inequality_eq, f.inequality_eq, stack_congr same]

theorem contribution_congr (same : ∀ k ∈ f.layout.keys, x.get? k = y.get? k)
    (multiplier : duals.scalar? f.dualKey = other.scalar? f.dualKey) :
    f.contribution x duals = f.contribution y other := by
  unfold contribution
  rw [multiplier, stack_congr same]

/-- An entry without components counts for nothing, so it makes no difference whether there is one. -/
theorem asked_eq_contribution : f.toConstraint.asked x duals = f.contribution x duals := by
  cases active : duals.contains f.dualKey with
  | true => exact Constraint.asked_of_active active
  | false =>
    have unweighted : duals.scalar? f.dualKey = none := by
      rw [Assignment.contains_eq_isSome, Option.isSome_eq_false_iff, Option.isNone_iff_eq_none] at active
      rw [Assignment.scalar?, active]
      rfl
    rw [f.contribution_of_none unweighted]
    exact Constraint.asked_of_inactive active

theorem asked_congr (same : ∀ k ∈ f.layout.keys, x.get? k = y.get? k)
    (multiplier : duals.scalar? f.dualKey = other.scalar? f.dualKey) :
    f.toConstraint.asked x duals = f.toConstraint.asked y other := by
  rw [asked_eq_contribution, asked_eq_contribution, contribution_congr same multiplier]

end SmoothConstraint

/-! ## Passes over a list -/

namespace ConstraintSet

variable {constraints : List (Constraint α)}

theorem termsFrom_congr (same : ∀ c ∈ constraints, c.asked x duals = c.asked y other)
    (multipliers : ∀ c ∈ constraints, duals.scalar? c.dualKey = other.scalar? c.dualKey) (i : ℕ) :
    termsFrom x duals i constraints = termsFrom y other i constraints := by
  induction constraints generalizing i with
  | nil => rfl
  | cons c rest ih =>
    obtain ⟨here, later⟩ := List.forall_mem_cons.mp same
    obtain ⟨multiplier, multipliers⟩ := List.forall_mem_cons.mp multipliers
    have record : termRecord duals i c = termRecord other i c := by rw [termRecord, termRecord, multiplier]
    cases answer : c.asked x duals with
    | error e => rw [termsFrom_error i rest answer, termsFrom_error i rest (here ▸ answer)]
    | ok term =>
      cases term with
      | none =>
        rw [termsFrom_silent i rest answer, termsFrom_silent i rest (here ▸ answer), ih later multipliers]
      | some term =>
        rw [termsFrom_term i rest answer, termsFrom_term i rest (here ▸ answer), ih later multipliers, record]

variable [Scalar α]

theorem linearizeFrom_congr (same : ∀ c ∈ constraints, c.inequality x = c.inequality y) (i : ℕ) :
    linearizeFrom x i constraints = linearizeFrom y i constraints := by
  induction constraints generalizing i with
  | nil => rfl
  | cons c rest ih =>
    obtain ⟨here, later⟩ := List.forall_mem_cons.mp same
    rw [linearizeFrom, linearizeFrom, here]
    simp only [ih later]

theorem totalFrom_congr (same : ∀ c ∈ constraints, c.violation x = c.violation y) (i : ℕ) (total : α) :
    totalFrom x i total constraints = totalFrom y i total constraints := by
  induction constraints generalizing i total with
  | nil => rfl
  | cons c rest ih =>
    obtain ⟨here, later⟩ := List.forall_mem_cons.mp same
    rw [totalFrom, totalFrom, here]
    simp only [ih later]

theorem checkFrom_congr (same : ∀ c ∈ constraints, c.violation x = c.violation y)
    (presence : ∀ c ∈ constraints, duals.contains c.dualKey = other.contains c.dualKey) (tol : α) (i : ℕ) :
    Kkt.checkFrom x duals tol i constraints = Kkt.checkFrom y other tol i constraints := by
  induction constraints generalizing i with
  | nil => rfl
  | cons c rest ih =>
    obtain ⟨here, later⟩ := List.forall_mem_cons.mp same
    obtain ⟨active, actives⟩ := List.forall_mem_cons.mp presence
    rw [Kkt.checkFrom, Kkt.checkFrom, here]
    simp only [Kkt.recordOf, active, ih later actives]

/-! ## A set -/

/-- Two points with the same entries for the variables of the constraints cannot be told apart by any pass. Of the
duals the optimality test reads which dual keys have an entry, and the correction reads first components. -/
theorem passes_congr (s : ConstraintSet α) (smooth : ∀ c ∈ s.constraints, c.IsSmooth) (x y : Assignment α)
    (same : ∀ c ∈ s.constraints, ∀ k ∈ c.keys, x.get? k = y.get? k) :
    s.linearize x = s.linearize y ∧ s.totalViolation x = s.totalViolation y ∧
    (∀ (duals other : Assignment α) (options : Kkt.Options α),
      (∀ k ∈ s.dualKeys, duals.contains k = other.contains k) →
        s.kktReport x duals options = s.kktReport y other options) ∧
    ∀ duals other : Assignment α, (∀ k ∈ s.dualKeys, duals.scalar? k = other.scalar? k) →
      s.lagrangianCorrection x duals = s.lagrangianCorrection y other := by
  have rows : ∀ c ∈ s.constraints, c.inequality x = c.inequality y := by
    intro c mem
    obtain ⟨f, rfl⟩ := smooth c mem
    exact SmoothConstraint.inequality_congr (same _ mem)
  have values : ∀ c ∈ s.constraints, c.violation x = c.violation y := by
    intro c mem
    obtain ⟨f, rfl⟩ := smooth c mem
    exact SmoothConstraint.violation_congr (same _ mem)
  refine ⟨?_, totalFrom_congr values 0 0.0, fun duals other options presence => ?_,
    fun duals other multipliers => ?_⟩
  · unfold linearize
    rw [linearizeFrom_congr rows]
  · have entries : ∀ c ∈ s.constraints, duals.contains c.dualKey = other.contains c.dualKey := fun c mem =>
      presence _ (List.mem_map_of_mem mem)
    exact kktReport_congr options (checkFrom_congr values entries options.tol 0)
  · have weights : ∀ c ∈ s.constraints, duals.scalar? c.dualKey = other.scalar? c.dualKey := fun c mem =>
      multipliers _ (List.mem_map_of_mem mem)
    have answers : ∀ c ∈ s.constraints, c.asked x duals = c.asked y other := by
      intro c mem
      obtain ⟨f, rfl⟩ := smooth c mem
      exact SmoothConstraint.asked_congr (same _ mem) (weights _ mem)
    unfold lagrangianCorrection
    rw [termsFrom_congr answers weights]

/-- The square of one variable, at most four. -/
def squareAtMostFour (key dualKey : Key) : SmoothConstraint Float where
  layout := [(key, 1)]
  dualKey
  value y := dot y y - 4.0
  gradient y _ := y.map (2.0 * ·)
  hessian? := some fun _ _ => [2.0]

def bothAtMostFour : ConstraintSet Float :=
  ofList [(squareAtMostFour ⟨1⟩ ⟨7⟩).toConstraint, (squareAtMostFour ⟨2⟩ ⟨8⟩).toConstraint]

def oneTwo : Assignment Float := .ofList [(⟨1⟩, [1.0]), (⟨2⟩, [2.0])]

/-- The points differ in a variable of no constraint. The duals of the tests have different components, and those
of the corrections a further entry, an empty one and a second component. -/
theorem passes_congr_bothAtMostFour :
    (∃ r, (bothAtMostFour.kktReport oneTwo (.ofList [(⟨8⟩, [3.0])]) {}).outcome = .ok r ∧ r.checked = 2 ∧
      (bothAtMostFour.kktReport (oneTwo.insert ⟨5⟩ [8.0]) (.ofList [(⟨8⟩, []), (⟨9⟩, [1.0])]) {}).outcome = .ok r) ∧
    ∃ L, (bothAtMostFour.lagrangianCorrection oneTwo (.ofList [(⟨7⟩, []), (⟨8⟩, [3.0])])).outcome = .ok L ∧
      L.size = 1 ∧ (bothAtMostFour.lagrangianCorrection (oneTwo.insert ⟨5⟩ [8.0])
        (.ofList [(⟨8⟩, [3.0, 2.0]), (⟨9⟩, [1.0])])).outcome = .ok L := by
  have constraints : bothAtMostFour.constraints = [_, _] := rfl
  have smooth : ∀ c ∈ bothAtMostFour.constraints, c.IsSmooth := by
    rw [constraints]
    simp only [List.forall_mem_cons]
    exact ⟨⟨_, rfl⟩, ⟨_, rfl⟩, nofun⟩
  have same : ∀ c ∈ bothAtMostFour.constraints, ∀ k ∈ c.keys,
      oneTwo.get? k = (oneTwo.insert ⟨5⟩ [8.0]).get? k := by
    rw [constraints]
    simp only [List.forall_mem_cons]
    refine ⟨?_, ?_, nofun⟩ <;> (intro k mem; cases List.mem_singleton.mp mem; rfl)
  obtain ⟨_, _, report, correction⟩ := passes_congr bothAtMostFour smooth oneTwo _ same
  rw [← report (.ofList [(⟨8⟩, [3.0])]) _ {} (by decide),
    ← correction (.ofList [(⟨7⟩, []), (⟨8⟩, [3.0])]) _ (by decide)]
  exact ⟨⟨_, rfl, rfl, rfl⟩, _, rfl, rfl, rfl⟩

end ConstraintSet

end InequalityLayer
