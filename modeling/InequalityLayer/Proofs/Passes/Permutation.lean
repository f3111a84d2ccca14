import InequalityLayer.Proofs.Constraint.Linearization
import InequalityLayer.Proofs.Constraint.Merit
import InequalityLayer.Proofs.Exact.FirstOrder
import InequalityLayer.Proofs.Kkt.Runs
import InequalityLayer.Proofs.Kkt.Tolerance
import InequalityLayer.Proofs.Linear.Feasibility
import InequalityLayer.Proofs.Passes.Dependence
import Mathlib

/-!
Sets with the same constraints in another order. Where every constraint answers, each pass is a function of the
list of answers: the linearized set and the correction list them (`linearize_of_answers`,
`lagrangianCorrection_of_answers`), both tests ask whether some answer fails (`exists_isKkt_of_values`,
`exists_isFeasible_of_errors` beside the characterizations of acceptance), and sums add them up, which over the
rationals does not depend on the order (`totalViolation_of_perm`, `error_of_perm`). Main statement: `passes_perm`.
-/
namespace InequalityLayer
set_option autoImplicit false

/-! ## Answers in another order -/

section Lists

variable {ε β γ : Type} {f : β → Except ε γ}

theorem exists_mapM_of_perm {l l' : List β} (perm : l.Perm l') {r : List γ} (ok : l.mapM f = .ok r) :
    ∃ r', l'.mapM f = .ok r' ∧ r.Perm r' := by
  obtain ⟨r', answers, same⟩ := List.perm_comp_forall₂ perm.symm (mapM_eq_ok_iff.mp ok)
  exact ⟨r', mapM_eq_ok_iff.mpr answers, same.symm⟩

/-- Two tests that both end are decided alike if they accept alike. -/
theorem exists_same_answer {p q : Except ε Bool} (first : ∃ b, p = .ok b) (second : ∃ b, q = .ok b)
    (same : p = .ok true ↔ q = .ok true) : ∃ b, p = .ok b ∧ q = .ok b := by
  obtain ⟨b, rfl⟩ := first
  obtain ⟨b', rfl⟩ := second
  refine ⟨b, rfl, ?_⟩
  rw [Except.ok.injEq, Except.ok.injEq] at same
  rw [Bool.eq_iff_iff.mpr same]

end Lists

/-! ## One constraint -/

section Answers

variable {α : Type}

/-- The constraint has a value at the point, one coefficient row, and a contribution or none. -/
structure Constraint.Answers (c : Constraint α) (x duals : Assignment α) : Prop where
  value : ∃ v, c.violation x = .ok v
  row : ∃ J, c.HasRow x J
  contribution : ∃ answer, c.contribution x duals = .ok answer

theorem Constraint.Answers.asked {c : Constraint α} {x duals : Assignment α} (h : c.Answers x duals) :
    ∃ answer, c.asked x duals = .ok answer := by
  cases active : duals.contains c.dualKey with
  | true => rw [asked_of_active active]; exact h.contribution
  | false => exact ⟨none, asked_of_inactive active⟩

/-- A smooth constraint answers wherever it can be evaluated, given room for its second derivatives. -/
theorem SmoothConstraint.answers_of_definedAt [Scalar α] {f : SmoothConstraint α} {x : Assignment α}
    (defined : f.DefinedAt x) (room : f.HasRoom) (duals : Assignment α) : f.toConstraint.Answers x duals := by
  obtain ⟨y, stacked⟩ := f.exists_stack_iff.mpr defined
  refine ⟨⟨f.value y, ?_⟩, ⟨f.rowAt y, ?_, rfl⟩, ?_⟩
  · change f.violation x = _
    rw [f.violation_eq, stacked]
    rfl
  · change f.linearize x = _
    rw [f.linearize_eq, stacked]
    rfl
  · cases entry : duals.scalar? f.dualKey with
    | none => exact ⟨none, f.contribution_of_none entry⟩
    | some multiplier => exact (f.exists_contribution_iff entry).mpr ⟨defined, room⟩

end Answers

/-! ## Passes as functions of the answers -/

section Tests

variable {α : Type} [Scalar α]

theorem LinearizedSet.exists_isFeasible_of_errors {m : LinearizedSet α} {δ : Assignment α}
    (values : ∀ q ∈ m.inequalities, ∃ e, q.error δ = .ok e) (tol : α) : ∃ b, m.isFeasible δ tol = .ok b := by
  obtain ⟨errors, ok⟩ := exists_mapM_eq_ok_iff.mpr values
  exact ⟨_, allWithin_of_errors tol (mapM_eq_ok_iff.mp ok).flip⟩

theorem LinearizedSet.isFeasible_of_perm {m n : LinearizedSet α} (perm : m.inequalities.Perm n.inequalities)
    {δ : Assignment α} (values : ∀ q ∈ m.inequalities, ∃ e, q.error δ = .ok e) (tol : α) :
    ∃ b, m.isFeasible δ tol = .ok b ∧ n.isFeasible δ tol = .ok b := by
  refine exists_same_answer (m.exists_isFeasible_of_errors values tol)
    (n.exists_isFeasible_of_errors (fun q mem => values q (perm.mem_iff.mpr mem)) tol) ?_
  unfold isFeasible
  simp only [allWithin_eq_true_iff, perm.mem_iff]

namespace ConstraintSet
open Kkt

variable {s t : ConstraintSet α} {x duals : Assignment α}

theorem exists_isKkt_of_values (values : ∀ c ∈ s.constraints, ∃ v, c.violation x = .ok v) (duals : Assignment α)
    (tol : α) : ∃ b, (s.isKkt x duals tol).outcome = .ok b := by
  have report : ∃ r, (s.kktReport x duals { tol }).outcome = .ok r := by
    by_cases stopped : ∃ c ∈ s.constraints, Stops x duals ({ tol } : Options α).tol c
    · obtain ⟨i, c, first⟩ := exists_firstStop stopped
      obtain ⟨v, value⟩ := values c (List.mem_of_getElem? first.get)
      have verdict := first.verdict_eq
      rw [value] at verdict
      obtain ⟨r, ok, _⟩ := map_verdict_eq_ok_iff.mp verdict
      exact ⟨r, ok⟩
    · push Not at stopped
      obtain ⟨r, ok, _⟩ := map_verdict_eq_ok_iff.mp (verdict_of_not_stops stopped)
      exact ⟨r, ok⟩
  obtain ⟨r, ok⟩ := report
  have answer := s.outcome_isKkt x duals { tol }
  rw [ok] at answer
  exact ⟨_, answer⟩

theorem isKkt_of_perm (perm : s.constraints.Perm t.constraints)
    (values : ∀ c ∈ s.constraints, ∃ v, c.violation x = .ok v) (duals : Assignment α) (tol : α) :
    ∃ b, (s.isKkt x duals tol).outcome = .ok b ∧ (t.isKkt x duals tol).outcome = .ok b := by
  refine exists_same_answer (exists_isKkt_of_values values duals tol)
    (exists_isKkt_of_values (fun c mem => values c (perm.mem_iff.mpr mem)) duals tol) ?_
  simp only [isKkt_eq_true_iff_not_stops, perm.mem_iff]

theorem linearize_of_answers {row : Constraint α → LinearInequality α}
    (answered : ∀ c ∈ s.constraints, c.inequality x = .ok (row c)) :
    (s.linearize x).outcome = .ok ⟨s.constraints.map row⟩ := by
  rw [outcome_linearize, mapM_eq_map answered]
  rfl

end ConstraintSet

end Tests

/-! ## Sums over the rationals -/

theorem ConstraintSet.totalViolation_of_perm {s t : ConstraintSet ℚ} {x : Assignment ℚ}
    (perm : s.constraints.Perm t.constraints) {v : ℚ} (ok : (s.totalViolation x).outcome = .ok v) :
    (t.totalViolation x).outcome = .ok v := by
  rw [outcome_totalViolation_eq_ok_iff] at ok ⊢
  obtain ⟨violations, answers, _, rfl⟩ := ok
  obtain ⟨others, answers', same⟩ := exists_mapM_of_perm perm answers
  refine ⟨others, answers', fun v _ => isFinite_rat v, ?_⟩
  unfold runningTotal
  exact same.foldl_eq' (fun v _ w _ total => add_right_comm total (Scalar.abs v) (Scalar.abs w)) 0.0

theorem LagrangianCorrection.error_of_perm {L M : LagrangianCorrection ℚ} (perm : L.terms.Perm M.terms)
    {δ : Assignment ℚ} {v : ℚ} (ok : L.error δ = .ok v) : M.error δ = .ok v := by
  unfold error at ok ⊢
  cases values : L.terms.mapM fun term => term.error δ with
  | error e =>
    rw [values] at ok
    cases ok
  | ok errors =>
    obtain ⟨others, values', same⟩ := exists_mapM_of_perm perm values
    rw [values, Except.map_ok, sum_rat, same.sum_eq] at ok
    rw [values', Except.map_ok, sum_rat, ok]

/-! ## Two sets -/

namespace ConstraintSet

/-- The passes over two sets give the same, each in the order of its constraints. -/
structure SameButOrder {α : Type} [Scalar α] (s t : ConstraintSet α) (x duals : Assignment α) : Prop where
  verdict : ∀ tol, ∃ b, (s.isKkt x duals tol).outcome = .ok b ∧ (t.isKkt x duals tol).outcome = .ok b
  linearized : ∃ row : Constraint α → LinearInequality α,
    (∀ c ∈ s.constraints, c.inequality x = .ok (row c)) ∧
    (s.linearize x).outcome = .ok ⟨s.constraints.map row⟩ ∧ (t.linearize x).outcome = .ok ⟨t.constraints.map row⟩
  feasible : ∀ m n, (s.linearize x).outcome = .ok m → (t.linearize x).outcome = .ok n →
    ∀ δ tol, (∀ q ∈ m.inequalities, ∃ e, q.error δ = .ok e) →
      ∃ b, m.isFeasible δ tol = .ok b ∧ n.isFeasible δ tol = .ok b
  correction :
    (s.lagrangianCorrection x duals).outcome = .ok ⟨s.constraints.filterMap fun c => c.term? x duals⟩ ∧
    (t.lagrangianCorrection x duals).outcome = .ok ⟨t.constraints.filterMap fun c => c.term? x duals⟩
  keys : ∀ L M, (s.lagrangianCorrection x duals).outcome = .ok L →
    (t.lagrangianCorrection x duals).outcome = .ok M → L.keys = M.keys

theorem sameButOrder_of_perm {α : Type} [Scalar α] {s t : ConstraintSet α} {x duals : Assignment α}
    (perm : s.constraints.Perm t.constraints) (answers : ∀ c ∈ s.constraints, c.Answers x duals) :
    s.SameButOrder t x duals := by
  have rows : ∃ row : Constraint α → LinearInequality α, ∀ c ∈ s.constraints, c.inequality x = .ok (row c) := by
    have some_row : Nonempty (LinearInequality α) :=
      ⟨⟨⟨[], [0.0], List.cons_ne_nil _ _, by simp⟩, ⟨0⟩, false⟩⟩
    choose! row answered using fun c mem => Constraint.exists_inequality_iff.mpr (answers c mem).row
    exact ⟨row, answered⟩
  obtain ⟨row, answered⟩ := rows
  have linear := linearize_of_answers answered
  have linear' := linearize_of_answers (s := t) fun c mem => answered c (perm.mem_iff.mpr mem)
  have correction := lagrangianCorrection_of_answers fun c mem => (answers c mem).asked
  have correction' := lagrangianCorrection_of_answers (s := t) fun c mem => (answers c (perm.mem_iff.mpr mem)).asked
  refine ⟨isKkt_of_perm perm (fun c mem => (answers c mem).value) duals, ⟨row, answered, linear, linear'⟩,
    fun m n ok ok' δ tol values => ?_, ⟨correction, correction'⟩, fun L M ok ok' => ?_⟩
  · obtain rfl := Except.ok.inj (linear.symm.trans ok)
    obtain rfl := Except.ok.inj (linear'.symm.trans ok')
    exact LinearizedSet.isFeasible_of_perm (perm.map row) values tol
  · obtain rfl := Except.ok.inj (correction.symm.trans ok)
    obtain rfl := Except.ok.inj (correction'.symm.trans ok')
    exact LagrangianCorrection.keys_eq_iff.mpr fun k => by simp only [(perm.filterMap fun c => c.term? x duals).mem_iff]

/-- Sets with the same constraints, all of which answer, give the same in every pass, up to their order. Over the
rationals their merits and the values of their corrections are the same too. -/
theorem passes_perm :
    (∀ {α : Type} [Scalar α] {s t : ConstraintSet α} {x duals : Assignment α},
      s.constraints.Perm t.constraints → (∀ c ∈ s.constraints, c.Answers x duals) → s.SameButOrder t x duals) ∧
    ∀ {s t : ConstraintSet ℚ} {x duals : Assignment ℚ},
      s.constraints.Perm t.constraints → (∀ c ∈ s.constraints, c.Answers x duals) →
      (∃ v, (s.totalViolation x).outcome = .ok v ∧ (t.totalViolation x).outcome = .ok v) ∧
      ∃ L M, (s.lagrangianCorrection x duals).outcome = .ok L ∧ (t.lagrangianCorrection x duals).outcome = .ok M ∧
        ∀ δ v, L.error δ = .ok v ↔ M.error δ = .ok v := by
  refine ⟨sameButOrder_of_perm, fun {s t x duals} perm answers => ⟨?_, ?_⟩⟩
  · obtain ⟨violations, values⟩ := exists_mapM_eq_ok_iff.mpr fun c mem => (answers c mem).value
    have merit := (outcome_totalViolation_eq_ok_iff s x _).mpr ⟨violations, values, fun v _ => isFinite_rat v, rfl⟩
    exact ⟨_, merit, totalViolation_of_perm perm merit⟩
  · obtain ⟨correction, correction'⟩ := (sameButOrder_of_perm perm answers).correction
    have terms := perm.filterMap fun c => c.term? x duals
    exact ⟨_, _, correction, correction', fun δ v =>
      ⟨LagrangianCorrection.error_of_perm terms, LagrangianCorrection.error_of_perm terms.symm⟩⟩

theorem definedAt_twoSquares : ∀ f ∈ twoSquares, f.DefinedAt onSquares := by
  unfold twoSquares squareOfSum SmoothConstraint.DefinedAt
  simp only [List.forall_mem_cons]
  refine ⟨⟨by decide, ⟨_, rfl, rfl⟩, ⟨_, rfl, rfl⟩, ⟨_, rfl, rfl⟩, nofun⟩,
    ⟨by decide, ⟨_, rfl, rfl⟩, ⟨_, rfl, rfl⟩, nofun⟩, nofun⟩

theorem hasRoom_twoSquares : ∀ f ∈ twoSquares, f.HasRoom := by
  unfold twoSquares squareOfSum SmoothConstraint.HasRoom
  simp only [List.forall_mem_cons]
  exact ⟨by decide, by decide, nofun⟩

theorem passes_perm_twoSquares :
    (ofList (twoSquares.map SmoothConstraint.toConstraint)).SameButOrder
      (ofList (twoSquares.reverse.map SmoothConstraint.toConstraint)) onSquares (.ofList [(⟨7⟩, [2]), (⟨8⟩, [])]) ∧
    ((ofList (twoSquares.reverse.map SmoothConstraint.toConstraint)).totalViolation onSquares).outcome = .ok 19 := by
  have perm : (ofList (twoSquares.map SmoothConstraint.toConstraint)).constraints.Perm
      (ofList (twoSquares.reverse.map SmoothConstraint.toConstraint)).constraints :=
    (List.reverse_perm twoSquares).symm.map SmoothConstraint.toConstraint
  have answers : ∀ c ∈ (ofList (twoSquares.map SmoothConstraint.toConstraint)).constraints,
      c.Answers onSquares (.ofList [(⟨7⟩, [2]), (⟨8⟩, [])]) := by
    change ∀ c ∈ twoSquares.map SmoothConstraint.toConstraint, _
    rw [List.forall_mem_map]
    exact fun f mem => SmoothConstraint.answers_of_definedAt (definedAt_twoSquares f mem) (hasRoom_twoSquares f mem) _
  obtain ⟨v, merit, merit'⟩ := (passes_perm.2 perm answers).1
  have first : ((ofList (twoSquares.map SmoothConstraint.toConstraint)).totalViolation onSquares).outcome = .ok 19 := by
    decide +kernel
  rw [first] at merit
  exact ⟨passes_perm.1 perm answers, merit'.trans merit.symm⟩

end ConstraintSet

end InequalityLayer
