import InequalityLayer.Proofs.Constraint.Curvature
import Mathlib

/-!
The curvature pass constraint by constraint. `asked` is what the pass gets from a constraint, whether it is active
or not, and `term?` the term in it. Main statements: the step lemmas `termsFrom_error`, `termsFrom_silent` and
`termsFrom_term`; `outcome_lagrangianCorrection_asked`, the outcome of the pass as one question to every constraint;
and `lagrangianCorrection_of_answers`, the correction where all of them answer.
-/
namespace InequalityLayer
set_option autoImplicit false

variable {α : Type}

/-! ## One constraint -/

namespace Constraint

/-- The contribution of an active constraint; the others are not asked and have no term. -/
def asked (c : Constraint α) (x duals : Assignment α) : Outcome α (Option (HessianFactor α)) :=
  if duals.contains c.dualKey then c.contribution x duals else .ok none

/-- The term that a correction takes from a constraint, if it takes one. -/
def term? (c : Constraint α) (x duals : Assignment α) : Option (HessianFactor α) := (c.asked x duals).toOption.join

variable {c : Constraint α} {x duals : Assignment α}

theorem term?_of_asked {answer : Option (HessianFactor α)} (h : c.asked x duals = .ok answer) :
    c.term? x duals = answer := by
  rw [term?, h]
  rfl

theorem asked_of_active (active : duals.contains c.dualKey = true) : c.asked x duals = c.contribution x duals :=
  if_pos active

theorem asked_of_inactive (inactive : duals.contains c.dualKey = false) : c.asked x duals = .ok none :=
  if_neg (Bool.not_eq_true _ ▸ inactive)

theorem active_of_asked {answer : Outcome α (Option (HessianFactor α))} (h : c.asked x duals = answer)
    (other : answer ≠ .ok none) : duals.contains c.dualKey = true :=
  Bool.eq_true_of_not_eq_false fun inactive => other (h ▸ asked_of_inactive inactive)

end Constraint

/-! ## The pass -/

namespace ConstraintSet

def termRecord (duals : Assignment α) (i : ℕ) (c : Constraint α) : TraceRecord α :=
  { pass := "hessian", index := i, dualKey := c.dualKey
    multiplier := duals.scalar? c.dualKey, active := some true }

section Step

variable {x duals : Assignment α} {c : Constraint α} (i : ℕ) (rest : List (Constraint α))

theorem termsFrom_error {e : Failure α} (h : c.asked x duals = .error e) :
    termsFrom x duals i (c :: rest) = ⟨[], .error e⟩ := by
  have active := Constraint.active_of_asked h nofun
  rw [Constraint.asked_of_active active] at h
  rw [termsFrom, if_pos active, h]
  exact Pass.lift_bind_error e _

theorem termsFrom_silent (h : c.asked x duals = .ok none) :
    termsFrom x duals i (c :: rest) = termsFrom x duals (i + 1) rest := by
  rw [termsFrom]
  cases active : duals.contains c.dualKey with
  | false => rw [if_neg Bool.false_ne_true]
  | true =>
    rw [Constraint.asked_of_active active] at h
    rw [if_pos rfl, h]
    exact Pass.lift_bind_ok none _

theorem termsFrom_term {term : HessianFactor α} (h : c.asked x duals = .ok (some term)) :
    termsFrom x duals i (c :: rest) =
      ⟨.visited (termRecord duals i c) :: (termsFrom x duals (i + 1) rest).events,
        (termsFrom x duals (i + 1) rest).outcome.map (term :: ·)⟩ := by
  have active := Constraint.active_of_asked h nofun
  rw [Constraint.asked_of_active active] at h
  rw [termsFrom, if_pos active, h, Pass.lift_bind_ok]
  simp only [Pass.emit_bind, termRecord]
  cases later : (termsFrom x duals (i + 1) rest).outcome with
  | error e => rw [Pass.bind_error _ _ e later]; rfl
  | ok r => rw [Pass.bind_ok _ _ r later, Pass.pure_eq, List.append_nil]; rfl

end Step

theorem outcome_termsFrom_of_ok {s : ConstraintSet α} {x duals : Assignment α} {L : LagrangianCorrection α}
    (ok : (s.lagrangianCorrection x duals).outcome = .ok L) :
    (termsFrom x duals 0 s.constraints).outcome = .ok L.terms := by
  cases run : (termsFrom x duals 0 s.constraints).outcome with
  | error e =>
    rw [lagrangianCorrection, Pass.bind_error _ _ e run] at ok
    cases ok
  | ok terms =>
    rw [lagrangianCorrection, Pass.bind_ok _ _ terms run] at ok
    cases ok
    rfl

theorem outcome_lagrangianCorrection_asked (s : ConstraintSet α) (x duals : Assignment α) :
    (s.lagrangianCorrection x duals).outcome =
      LagrangianCorrection.mk <$> List.reduceOption <$> s.constraints.mapM fun c => c.asked x duals := by
  have silent : ∀ c ∈ s.constraints, duals.contains c.dualKey = false → c.asked x duals = .ok none :=
    fun _ _ => Constraint.asked_of_inactive
  have among : ∀ c ∈ active duals s.constraints, c.contribution x duals = c.asked x duals := fun c mem =>
    (Constraint.asked_of_active (List.mem_filter.mp mem).2).symm
  rw [outcome_lagrangianCorrection_eq, mapM_congr among, reduceOption_mapM_filter silent]
  rfl

theorem lagrangianCorrection_of_answers {s : ConstraintSet α} {x duals : Assignment α}
    (answered : ∀ c ∈ s.constraints, ∃ answer, c.asked x duals = .ok answer) :
    (s.lagrangianCorrection x duals).outcome = .ok ⟨s.constraints.filterMap fun c => c.term? x duals⟩ := by
  have terms : ∀ c ∈ s.constraints, c.asked x duals = .ok (c.term? x duals) := by
    intro c mem
    obtain ⟨answer, ok⟩ := answered c mem
    rw [ok, Constraint.term?_of_asked ok]
  rw [outcome_lagrangianCorrection_asked, mapM_eq_map terms, Except.map_ok, Except.map_ok, List.reduceOption,
    List.filterMap_map]
  rfl

end ConstraintSet

end InequalityLayer
