import InequalityLayer.Proofs.Constraint.Curvature
import InequalityLayer.Proofs.Exact.Quadratic
import Mathlib

/-!
The Taylor expansion of the Lagrangian over the rationals. The linearized inequalities and the curvature
terms come from separate passes; for quadratic constraints they are the two parts of one expansion
(`Represents.violation_shift`). Summed with the multipliers as weights, the values after a step are those of
the linear models minus the correction, with the sign the correction carries: `lagrangian_expansion`.
-/
namespace InequalityLayer
set_option autoImplicit false

/-! ## One constraint -/

namespace Quadratic.Represents

variable {c : SmoothConstraint ℚ} {q : Quadratic c.layout.dim} {x δ : Assignment ℚ} {y : List ℚ}

theorem violation_shift (h : q.Represents c) (stacked : c.stack x = .ok y)
    (fits : ∀ key ∈ c.layout.keys, x.Fits δ key) :
    ∃ d, c.layout.stackStep δ = .ok d ∧ c.violation (x.shift δ) =
      .ok (c.value y + dot (c.gradientAt y) d + 1 / 2 * quadraticForm (c.hessianAt y) d) := by
  obtain ⟨room, point⟩ := c.stack_eq_ok_iff.mp stacked
  obtain ⟨d, step, moved⟩ := Layout.stackPoint_shift point fits
  have hy : y.length = c.layout.dim := Layout.length_stackPoint point
  have hd : d.length = c.layout.dim := Layout.length_stackStep step
  refine ⟨d, step, ?_⟩
  have value : c.value (List.zipWith (· + ·) y d) =
      c.value y + dot (c.gradientAt y) d + 1 / 2 * quadraticForm (c.hessianAt y) d := by
    rw [h.value _ (Layout.length_stackPoint moved), q.value_add hy hd, h.value y hy, h.gradientAt_eq hy,
      h.hessianAt_eq hy, q.quadraticForm_hessian hd]
  rw [c.violation_eq, c.stack_eq_ok_iff.mpr ⟨room, moved⟩, ← value]
  rfl

end Quadratic.Represents

/-- A smooth constraint that computes a quadratic function. -/
def Constraint.IsQuadratic (c : Constraint ℚ) : Prop :=
  ∃ (f : SmoothConstraint ℚ) (q : Quadratic f.layout.dim), q.Represents f ∧ c = f.toConstraint

theorem Constraint.IsQuadratic.expansion {c : Constraint ℚ} (quadratic : c.IsQuadratic)
    {x δ : Assignment ℚ} (duals : Assignment ℚ) {model : LinearInequality ℚ}
    (linear : c.inequality x = .ok model) (fits : ∀ key ∈ c.keys, x.Fits δ key) :
    ∃ violation error, c.violation (x.shift δ) = .ok violation ∧ model.error δ = .ok error ∧
      ∀ answer, c.contribution x duals = .ok answer → ∃ curvatures,
        answer.toList.mapM (fun term => term.error δ) = .ok curvatures ∧
        (duals.scalar? c.dualKey).getD 0 * violation =
          (duals.scalar? c.dualKey).getD 0 * error - curvatures.sum := by
  obtain ⟨f, q, represents, rfl⟩ := quadratic
  cases stacked : f.stack x with
  | error e =>
    rw [f.inequality_eq, stacked] at linear
    cases linear
  | ok y =>
    rw [f.inequality_eq, stacked] at linear
    cases linear
    obtain ⟨d, step, value⟩ := represents.violation_shift stacked fits
    have row := f.error_row (f.length_of_stack stacked) step
    refine ⟨_, _, value, row, fun answer ok => ?_⟩
    cases entry : duals.scalar? f.toConstraint.dualKey with
    | none =>
      obtain rfl : none = answer := Except.ok.inj ((f.contribution_of_none entry).symm.trans ok)
      exact ⟨[], rfl, by simp⟩
    | some multiplier =>
      obtain ⟨_, _, term, _, rfl, _⟩ := f.exists_term_of_contribution entry ok
      have curvature := f.error_contribution stacked step entry ok
      refine ⟨_, mapM_cons_eq_ok_iff.mpr ⟨_, [], curvature, rfl, rfl⟩, ?_⟩
      rw [List.sum_singleton, Option.getD_some]
      ring

/-! ## A set of constraints -/

/-- The sum of the values of the constraints with an entry among the duals, each times the first component
of its entry. -/
def weightedSum (duals : Assignment ℚ) (dualKeys : List Key) (values : List ℚ) : ℚ :=
  (((dualKeys.zip values).filter fun p => duals.contains p.1).map fun p =>
    (duals.scalar? p.1).getD 0 * p.2).sum

theorem weightedSum_cons (duals : Assignment ℚ) (dualKey : Key) (dualKeys : List Key) (value : ℚ)
    (values : List ℚ) :
    weightedSum duals (dualKey :: dualKeys) (value :: values) =
      (if duals.contains dualKey then (duals.scalar? dualKey).getD 0 * value else 0) +
        weightedSum duals dualKeys values := by
  unfold weightedSum
  rw [List.zip_cons_cons, List.filter_cons]
  cases duals.contains dualKey <;> simp

namespace ConstraintSet

theorem expansion_of_list (x δ duals : Assignment ℚ) (constraints : List (Constraint ℚ))
    (quadratic : ∀ c ∈ constraints, c.IsQuadratic) {models : List (LinearInequality ℚ)}
    (linear : (constraints.mapM fun c => c.inequality x) = .ok models)
    (fits : ∀ c ∈ constraints, ∀ key ∈ c.keys, x.Fits δ key) :
    ∃ violations errors,
      (constraints.mapM fun c => c.violation (x.shift δ)) = .ok violations ∧
      (models.mapM fun m => m.error δ) = .ok errors ∧
      ∀ answers, ((active duals constraints).mapM fun c => c.contribution x duals) = .ok answers →
        ∃ curvatures, ((answers.filterMap id).mapM fun term => term.error δ) = .ok curvatures ∧
          weightedSum duals (constraints.map Constraint.dualKey) violations =
            weightedSum duals (constraints.map Constraint.dualKey) errors - curvatures.sum := by
  induction constraints generalizing models with
  | nil =>
    cases linear
    refine ⟨[], [], rfl, rfl, ?_⟩
    rintro _ ⟨⟩
    exact ⟨[], rfl, by simp [weightedSum]⟩
  | cons c rest ih =>
    obtain ⟨model, others, here, there, rfl⟩ := mapM_cons_eq_ok_iff.mp linear
    rw [List.forall_mem_cons] at quadratic fits
    obtain ⟨v, e, violation, error, term⟩ := quadratic.1.expansion duals here fits.1
    obtain ⟨vs, es, violations, errors, terms⟩ := ih quadratic.2 there fits.2
    refine ⟨v :: vs, e :: es, mapM_cons_eq_ok_iff.mpr ⟨v, vs, violation, violations, rfl⟩,
      mapM_cons_eq_ok_iff.mpr ⟨e, es, error, errors, rfl⟩, fun answers asked => ?_⟩
    rw [active_cons] at asked
    cases active : duals.contains c.dualKey with
    | false =>
      rw [active] at asked
      obtain ⟨curvatures, total, identities⟩ := terms answers asked
      refine ⟨curvatures, total, ?_⟩
      rw [List.map_cons, weightedSum_cons, weightedSum_cons, identities, active]
      simp
    | true =>
      rw [active, if_pos rfl] at asked
      obtain ⟨answer, later, contribution, contributions, rfl⟩ := mapM_cons_eq_ok_iff.mp asked
      obtain ⟨own, curvature, identity⟩ := term answer contribution
      obtain ⟨curvatures, total, identities⟩ := terms later contributions
      have split : (answer :: later).filterMap id = answer.toList ++ later.filterMap id := by
        cases answer <;> rfl
      refine ⟨own ++ curvatures, ?_, ?_⟩
      · rw [split, List.mapM_append, curvature, total]
        rfl
      · rw [List.map_cons, weightedSum_cons, weightedSum_cons, active, if_pos rfl, if_pos rfl, identity,
          identities, List.sum_append]
        ring

/-- Where smooth constraints can be linearized, nothing but room for their matrices is missing for a correction. -/
theorem exists_correction_of_linearize {s : ConstraintSet ℚ} {x : Assignment ℚ} (duals : Assignment ℚ)
    {smooth : List (SmoothConstraint ℚ)} (constraints : s.constraints = smooth.map SmoothConstraint.toConstraint)
    {inequalities : List (LinearInequality ℚ)}
    (models : (s.constraints.mapM fun c => c.inequality x) = .ok inequalities)
    (room : ∀ f ∈ weighted duals smooth, f.HasRoom) :
    ∃ correction, (s.lagrangianCorrection x duals).outcome = .ok correction := by
  refine (exists_lagrangianCorrection_smooth_iff constraints).mpr fun f mem => ⟨?_, room f mem⟩
  have among : f.toConstraint ∈ s.constraints := by
    rw [constraints]
    exact List.mem_map_of_mem (List.mem_filter.mp mem).1
  obtain ⟨q, row⟩ := exists_mapM_eq_ok_iff.mp ⟨inequalities, models⟩ _ among
  obtain ⟨y, stacked, _⟩ := f.exists_stack_of_inequality row
  exact f.exists_stack_iff.mp ⟨y, stacked⟩

/-- Where a set of quadratic constraints can be linearized, the multipliers times the constraints after a
step are the multipliers times their linear models minus the correction. The correction is there if there is room
for the second derivatives of each constraint with a multiplier. -/
theorem lagrangian_expansion (s : ConstraintSet ℚ) (quadratic : ∀ c ∈ s.constraints, c.IsQuadratic)
    (x duals δ : Assignment ℚ) {model : LinearizedSet ℚ} (linear : (s.linearize x).outcome = .ok model)
    (fits : ∀ c ∈ s.constraints, ∀ key ∈ c.keys, x.Fits δ key) :
    ∃ violations errors,
      (s.constraints.mapM fun c => c.violation (x.shift δ)) = .ok violations ∧
      (model.inequalities.mapM fun m => m.error δ) = .ok errors ∧
      (∀ smooth, s.constraints = smooth.map SmoothConstraint.toConstraint →
        (∀ f ∈ weighted duals smooth, f.HasRoom) →
          ∃ correction, (s.lagrangianCorrection x duals).outcome = .ok correction) ∧
      ∀ correction, (s.lagrangianCorrection x duals).outcome = .ok correction →
        ∃ curvature, correction.error δ = .ok curvature ∧
          weightedSum duals s.dualKeys violations = weightedSum duals s.dualKeys errors - curvature := by
  rw [outcome_linearize] at linear
  cases models : s.constraints.mapM fun c => c.inequality x with
  | error e =>
    rw [models] at linear
    cases linear
  | ok inequalities =>
    rw [models] at linear
    cases linear
    obtain ⟨violations, errors, evaluated, modeled, terms⟩ :=
      expansion_of_list x δ duals s.constraints quadratic models fits
    refine ⟨violations, errors, evaluated, modeled,
      fun smooth constraints room => exists_correction_of_linearize duals constraints models room,
      fun correction ok => ?_⟩
    rw [outcome_lagrangianCorrection] at ok
    cases asked : (active duals s.constraints).mapM fun c => c.contribution x duals with
    | error e =>
      rw [asked] at ok
      cases ok
    | ok answers =>
      rw [asked] at ok
      cases ok
      obtain ⟨curvatures, total, identity⟩ := terms answers asked
      refine ⟨curvatures.sum, ?_, identity⟩
      unfold LagrangianCorrection.error
      rw [total, Except.map_ok, sum_rat]

/-! ## A set of three -/

/-- Two constraints over two variables, one of them by differences, and one over a single variable. -/
def threeSmooth : List (SmoothConstraint ℚ) :=
  [Quadratic.toSmooth [(⟨1⟩, 2), (⟨2⟩, 1)] ⟨fun i k => i + k, fun i => i, -1, by grind⟩ ⟨7⟩ true 1,
    Quadratic.toSmooth [(⟨3⟩, 1), (⟨1⟩, 2)] ⟨fun i k => i * k, fun _ => 2, 3, by grind⟩ ⟨8⟩ false 4,
    Quadratic.toSmooth [(⟨2⟩, 1)] ⟨fun _ _ => 4, fun _ => -3, 0, by grind⟩ ⟨9⟩ true 1]

def threeQuadratics : ConstraintSet ℚ := ofList (threeSmooth.map SmoothConstraint.toConstraint)

theorem isQuadratic_threeQuadratics : ∀ c ∈ threeQuadratics.constraints, c.IsQuadratic := by
  have constraints : threeQuadratics.constraints = [_, _, _] := rfl
  rw [constraints]
  simp only [List.forall_mem_cons]
  exact ⟨⟨_, _, Quadratic.represents_toSmooth _ _ _ _ one_ne_zero, rfl⟩,
    ⟨_, _, Quadratic.represents_toSmooth _ _ _ _ four_ne_zero, rfl⟩,
    ⟨_, _, Quadratic.represents_toSmooth _ _ _ _ one_ne_zero, rfl⟩, fun c mem => nomatch mem⟩

def threeVariables : Assignment ℚ := .ofList [(⟨1⟩, [1, 2]), (⟨2⟩, [3]), (⟨3⟩, [4])]

def twoMoves : Assignment ℚ := .ofList [(⟨1⟩, [1, -1]), (⟨3⟩, [2])]

def twoMultipliers : Assignment ℚ := .ofList [(⟨7⟩, [2]), (⟨8⟩, [-3, 6])]

theorem twoMoves_fits (key : Key) : threeVariables.Fits twoMoves key := by
  intro v d here move
  simp only [threeVariables, twoMoves, Assignment.ofList, List.foldl, Assignment.get?_insert,
    Assignment.get?_empty] at here move
  grind

/-- The step leaves out a variable and the multipliers a constraint. -/
theorem lagrangian_expansion_threeQuadratics :
    ∃ (model : LinearizedSet ℚ) (correction : LagrangianCorrection ℚ) (violations errors : List ℚ)
      (curvature : ℚ), (threeQuadratics.linearize threeVariables).outcome = .ok model ∧
      (threeQuadratics.constraints.mapM fun c => c.violation (threeVariables.shift twoMoves)) = .ok violations ∧
      (model.inequalities.mapM fun m => m.error twoMoves) = .ok errors ∧
      (threeQuadratics.lagrangianCorrection threeVariables twoMultipliers).outcome = .ok correction ∧
      correction.size = 2 ∧ correction.error twoMoves = .ok curvature ∧
      weightedSum twoMultipliers threeQuadratics.dualKeys violations =
        weightedSum twoMultipliers threeQuadratics.dualKeys errors - curvature := by
  have linear : ∃ model, (threeQuadratics.linearize threeVariables).outcome = .ok model := ⟨_, rfl⟩
  obtain ⟨model, linear⟩ := linear
  obtain ⟨violations, errors, values, rows, answered, expanded⟩ :=
    lagrangian_expansion threeQuadratics isQuadratic_threeQuadratics threeVariables twoMultipliers twoMoves
      linear fun _ _ key _ => twoMoves_fits key
  have room : ∀ f ∈ weighted twoMultipliers threeSmooth, f.HasRoom := by
    have kept : weighted twoMultipliers threeSmooth = [threeSmooth[0], threeSmooth[1]] := rfl
    rw [kept]
    simp only [List.forall_mem_cons]
    exact ⟨show 3 * 3 < Size.vectorLimit by decide, show 3 * 3 < Size.vectorLimit by decide, nofun⟩
  obtain ⟨correction, terms⟩ := answered threeSmooth rfl room
  obtain ⟨curvature, term, identity⟩ := expanded correction terms
  have size : correction.size = 2 := by
    cases terms
    rfl
  exact ⟨model, correction, violations, errors, curvature, linear, values, rows, terms, size, term, identity⟩

end ConstraintSet

end InequalityLayer
