import InequalityLayer.Proofs.Constraint.Ownership
import InequalityLayer.Proofs.Constraint.Passes
import Mathlib

/-!
Linearization of a whole set. A constraint has to answer with one coefficient row (`HasRow`), and there are
three ways in which it is rejected (`Rejected`); together they are all it can do (`inequality_eq_ok_iff`,
`inequality_eq_error_iff`). Main statements: `linearizeFrom_upto`, nothing behind a rejected constraint is
looked at, and `linearize_one_to_one`, one inequality for each constraint or the first rejection.
-/
namespace InequalityLayer
set_option autoImplicit false

variable {α : Type}

/-! ## One constraint -/

namespace Constraint

def HasRow (c : Constraint α) (x : Assignment α) (J : JacobianFactor α) : Prop :=
  c.linearize x = .ok (.jacobian J) ∧ J.rows = 1

/-- A constraint that fails reports its own failure; a model of another kind or with more rows is reported
under the dual key. -/
inductive Rejected (c : Constraint α) (x : Assignment α) : Failure α → Prop
  | failed {e : Failure α} : c.linearize x = .error e → Rejected c x e
  | malformed {form : HessianFactor α} : c.linearize x = .ok (.hessian form) →
      Rejected c x (.error (.malformed c.dualKey "Hessian"))
  | nonScalar {J : JacobianFactor α} : c.linearize x = .ok (.jacobian J) → J.rows ≠ 1 →
      Rejected c x (.error (.nonScalar c.dualKey J.rows))

variable {c : Constraint α} {x : Assignment α}

theorem inequality_eq_ok_iff {q : LinearInequality α} :
    c.inequality x = .ok q ↔
      ∃ J, c.HasRow x J ∧ q = { jacobian := J, dualKey := c.dualKey, active := false } := by
  unfold inequality HasRow
  cases answer : c.linearize x with
  | error e => simp [bind, Except.bind]
  | ok factor =>
    cases factor with
    | hessian form => simp [bind, Except.bind]
    | jacobian J =>
      by_cases one : J.rows = 1
      · simp [bind, Except.bind, one, eq_comm]
      · simp only [bind, Except.bind, if_neg one, reduceCtorEq, false_iff]
        rintro ⟨K, ⟨same, rows⟩, _⟩
        cases same
        exact one rows

theorem inequality_eq_error_iff {e : Failure α} : c.inequality x = .error e ↔ c.Rejected x e := by
  unfold inequality
  constructor
  · intro rejected
    cases answer : c.linearize x with
    | error own =>
      rw [answer] at rejected
      cases rejected
      exact .failed answer
    | ok factor =>
      rw [answer] at rejected
      cases factor with
      | hessian form =>
        cases rejected
        exact .malformed answer
      | jacobian J =>
        by_cases one : J.rows = 1
        · simp [bind, Except.bind, one] at rejected
        · simp only [bind, Except.bind, if_neg one, Except.error.injEq] at rejected
          exact rejected ▸ .nonScalar answer one
  · intro rejected
    cases rejected with
    | failed answer => rw [answer]; rfl
    | malformed answer => rw [answer]; rfl
    | nonScalar answer rows => simp [answer, rows, bind, Except.bind]

theorem exists_inequality_iff : (∃ q, c.inequality x = .ok q) ↔ ∃ J, c.HasRow x J := by
  simp only [inequality_eq_ok_iff]
  exact ⟨fun ⟨_, J, row, _⟩ => ⟨J, row⟩, fun ⟨J, row⟩ => ⟨_, J, row, rfl⟩⟩

end Constraint

/-! ## A list of constraints -/

namespace ConstraintSet

variable {x : Assignment α} {c : Constraint α}

theorem dualKeys_of_forall₂ {constraints : List (Constraint α)} {inequalities : List (LinearInequality α)}
    (h : List.Forall₂ (fun c q => c.inequality x = .ok q) constraints inequalities) :
    inequalities.map LinearInequality.dualKey = constraints.map Constraint.dualKey := by
  induction h with
  | nil => rfl
  | cons first _ ih =>
    obtain ⟨J, _, rfl⟩ := Constraint.inequality_eq_ok_iff.mp first
    rw [List.map_cons, List.map_cons, ih]

variable [Scalar α]

def rowRecord (i : ℕ) (q : LinearInequality α) : TraceRecord α :=
  { pass := "linearize", index := i, dualKey := q.dualKey, violation := some q.baseValue }

theorem linearizeFrom_reject (i : ℕ) (rest : List (Constraint α)) {e : Failure α}
    (h : c.inequality x = .error e) : linearizeFrom x i (c :: rest) = ⟨[], .error e⟩ := by
  rw [linearizeFrom, h]
  exact Pass.lift_bind_error e _

theorem linearizeFrom_accept (i : ℕ) (rest : List (Constraint α)) {q : LinearInequality α}
    (h : c.inequality x = .ok q) :
    linearizeFrom x i (c :: rest) =
      ⟨.visited (rowRecord i q) :: (linearizeFrom x (i + 1) rest).events,
        (linearizeFrom x (i + 1) rest).outcome.map (q :: ·)⟩ := by
  obtain ⟨J, _, rfl⟩ := Constraint.inequality_eq_ok_iff.mp h
  rw [linearizeFrom, h, Pass.lift_bind_ok, Pass.emit_bind]
  cases later : (linearizeFrom x (i + 1) rest).outcome with
  | error e => rw [Pass.bind_error _ _ e later]; rfl
  | ok r => rw [Pass.bind_ok _ _ r later, Pass.pure_eq, List.append_nil]; rfl

/-- What follows a rejected constraint changes neither events nor answer. -/
theorem linearizeFrom_upto (before rest : List (Constraint α)) (i : ℕ) {e : Failure α}
    (h : c.inequality x = .error e) :
    linearizeFrom x i (before ++ c :: rest) = linearizeFrom x i (before ++ [c]) := by
  induction before generalizing i with
  | nil => rw [List.nil_append, List.nil_append, linearizeFrom_reject i _ h, linearizeFrom_reject i _ h]
  | cons b before ih =>
    rw [List.cons_append, List.cons_append]
    cases hb : b.inequality x with
    | error e' => rw [linearizeFrom_reject i _ hb, linearizeFrom_reject i _ hb]
    | ok q => rw [linearizeFrom_accept i _ hb, linearizeFrom_accept i _ hb, ih (i + 1)]

/-! ## A set -/

theorem outcome_linearize_eq_ok_iff (s : ConstraintSet α) (m : LinearizedSet α) :
    (s.linearize x).outcome = .ok m ↔
      List.Forall₂ (fun c q => c.inequality x = .ok q) s.constraints m.inequalities := by
  rw [outcome_linearize, ← mapM_eq_ok_iff]
  obtain ⟨inequalities⟩ := m
  cases s.constraints.mapM fun c => c.inequality x <;> simp

/-- Entry `i` of a linearized set is the inequality of constraint `i`, and there is no other. -/
theorem get?_linearize {s : ConstraintSet α} {m : LinearizedSet α} (linear : (s.linearize x).outcome = .ok m)
    (i : ℕ) :
    (∀ c, s.get? i = some c → ∃ q, m.get? i = some q ∧ c.inequality x = .ok q) ∧
      ∀ q, m.get? i = some q → ∃ c, s.get? i = some c ∧ c.inequality x = .ok q := by
  obtain ⟨length, pairs⟩ := List.forall₂_iff_get.mp ((outcome_linearize_eq_ok_iff s m).mp linear)
  constructor
  · intro c at_i
    obtain ⟨below, rfl⟩ := List.getElem?_eq_some_iff.mp at_i
    exact ⟨_, List.getElem?_eq_getElem (length ▸ below), pairs i below (length ▸ below)⟩
  · intro q at_i
    obtain ⟨below, rfl⟩ := List.getElem?_eq_some_iff.mp at_i
    exact ⟨_, List.getElem?_eq_getElem (length.symm ▸ below), pairs i (length.symm ▸ below) below⟩

theorem outcome_linearize_eq_error_iff (s : ConstraintSet α) (e : Failure α) :
    (s.linearize x).outcome = .error e ↔ (s.constraints.mapM fun c => c.inequality x) = .error e := by
  rw [outcome_linearize]
  cases s.constraints.mapM fun c => c.inequality x <;> simp

/-- A set can be linearized if every constraint answers with one row; entry `i` then holds the row and the
dual key of constraint `i`, without the flag. Otherwise the first rejected constraint gives the error, and
the pass is the same for every set that begins like this one up to there. -/
theorem linearize_one_to_one (s : ConstraintSet α) (x : Assignment α) :
    ((∃ m, (s.linearize x).outcome = .ok m) ↔ ∀ c ∈ s.constraints, ∃ J, c.HasRow x J) ∧
    (∀ m, (s.linearize x).outcome = .ok m →
      m.size = s.size ∧ m.inequalities.map LinearInequality.dualKey = s.dualKeys ∧
      ∀ i c, s.get? i = some c → ∃ J, c.HasRow x J ∧
        m.get? i = some { jacobian := J, dualKey := c.dualKey, active := false }) ∧
    (∀ e, (s.linearize x).outcome = .error e ↔
      ∃ before c after, s.constraints = before ++ c :: after ∧
        (∀ d ∈ before, ∃ J, d.HasRow x J) ∧ c.Rejected x e) ∧
    ∀ before c after other e (t : ConstraintSet α), s.constraints = before ++ c :: after →
      t.constraints = before ++ c :: other → c.Rejected x e → t.linearize x = s.linearize x := by
  refine ⟨?_, fun m ok => ?_, fun e => ?_, fun before c after other e t here there rejected => ?_⟩
  · have models : (∃ m, (s.linearize x).outcome = .ok m) ↔
        ∃ r, (s.constraints.mapM fun c => c.inequality x) = .ok r := by
      simp only [outcome_linearize_eq_ok_iff, mapM_eq_ok_iff]
      exact ⟨fun ⟨m, h⟩ => ⟨m.inequalities, h⟩, fun ⟨r, h⟩ => ⟨⟨r⟩, h⟩⟩
    rw [models, exists_mapM_eq_ok_iff]
    simp only [Constraint.exists_inequality_iff]
  · have pairs := (outcome_linearize_eq_ok_iff s m).mp ok
    refine ⟨pairs.length_eq.symm, dualKeys_of_forall₂ pairs, fun i c at_i => ?_⟩
    obtain ⟨below, rfl⟩ := List.getElem?_eq_some_iff.mp at_i
    have paired := List.forall₂_iff_get.mp pairs
    obtain ⟨J, row, entry⟩ := Constraint.inequality_eq_ok_iff.mp (paired.2 i below (paired.1 ▸ below))
    exact ⟨J, row, entry ▸ List.getElem?_eq_getElem _⟩
  · rw [outcome_linearize_eq_error_iff, mapM_eq_error_iff]
    simp only [Constraint.exists_inequality_iff, Constraint.inequality_eq_error_iff]
  · have reject := Constraint.inequality_eq_error_iff.mpr rejected
    unfold linearize
    rw [here, there, linearizeFrom_upto before after 0 reject, linearizeFrom_upto before other 0 reject]

end ConstraintSet

end InequalityLayer
