import InequalityLayer.Linear.Inequality
import InequalityLayer.Proofs.Binary64.Order
import Mathlib

/-!
Feasibility of a step for linearized inequalities. `RowsWithin` asks it of every row; the test looks at
first rows only, and asks whether they are above the tolerance. Main statements: `error_eq_ok_iff`, the
value of an inequality is the first component of its error vector; `allWithin_eq_true_iff`, what the test
has seen when it accepts, `allWithin_of_errors`, what it answers where it can see everything, and
`FirstAbove.isFeasible_eq_false`, where it ends when it does not accept; and `isFeasible_eq_true_iff`, which
says over binary64 how far that is from `RowsWithin`.
-/
namespace InequalityLayer
set_option autoImplicit false

/-! ## Rows -/

namespace JacobianFactor

variable {α : Type}

theorem rows_pos (J : JacobianFactor α) : 0 < J.rows := List.length_pos_of_ne_nil J.rhs_ne_nil

theorem length_block (J : JacobianFactor α) {term : Key × List α} (mem : term ∈ J.terms) :
    term.2.length = J.rows * J.width term.2 :=
  (Nat.mul_div_cancel' (J.rows_dvd term mem)).symm

theorem length_errorVector [Scalar α] (J : JacobianFactor α) (δ : Assignment α) {errors : List α}
    (ok : J.errorVector δ = .ok errors) : errors.length = J.rows := by
  unfold errorVector multiply at ok
  cases overlap : J.overlap δ with
  | error e => simp [overlap] at ok
  | ok pairs =>
    simp only [overlap, Except.map_ok, Except.ok.injEq] at ok
    rw [← ok, List.length_zipWith, List.length_map, List.length_range, rows, Nat.min_self]

end JacobianFactor

namespace LinearInequality

variable {α : Type} [Scalar α] (c : LinearInequality α) (δ : Assignment α)

theorem error_eq_ok_iff (v : α) :
    c.error δ = .ok v ↔ ∃ further, c.jacobian.errorVector δ = .ok (v :: further) := by
  obtain ⟨⟨terms, rhs, nonempty, dvd⟩, dualKey, active⟩ := c
  obtain ⟨b, bs, rfl⟩ := List.exists_cons_of_ne_nil nonempty
  unfold error bound product JacobianFactor.errorVector JacobianFactor.multiply JacobianFactor.rows
  cases JacobianFactor.overlap ⟨terms, b :: bs, nonempty, dvd⟩ δ with
  | error e => simp
  | ok pairs => simp [List.range_succ_eq_map]

end LinearInequality

/-! ## The test -/

namespace LinearizedSet

variable {α : Type} [Scalar α]

theorem allWithin_eq_true_iff (δ : Assignment α) (tol : α) (cs : List (LinearInequality α)) :
    allWithin δ tol cs = .ok true ↔ ∀ c ∈ cs, ∃ v, c.error δ = .ok v ∧ ¬ tol < v := by
  induction cs with
  | nil => simp [allWithin]
  | cons c cs ih =>
    rw [List.forall_mem_cons, ← ih, allWithin]
    cases h : c.error δ with
    | error e => simp [bind, Except.bind]
    | ok v => by_cases above : tol < v <;> simp [bind, Except.bind, pure, Except.pure, above]

/-- Where every inequality has a value the test compares all of them with the tolerance. -/
theorem allWithin_of_errors {δ : Assignment α} (tol : α) {values : List α} {cs : List (LinearInequality α)}
    (errors : List.Forall₂ (fun v c => c.error δ = .ok v) values cs) :
    allWithin δ tol cs = .ok (decide (∀ v ∈ values, ¬ tol < v)) := by
  induction errors with
  | nil => rfl
  | @cons v c values cs value _ ih =>
    rw [allWithin, value]
    by_cases above : tol < v
    · simp [bind, Except.bind, pure, Except.pure, above]
    · simpa [bind, Except.bind, above] using ih

/-- The first inequality above the tolerance, and its position; those before it have a value. -/
structure FirstAbove (m : LinearizedSet α) (δ : Assignment α) (tol : α) (i : ℕ) (c : LinearInequality α) :
    Prop where
  get : m.get? i = some c
  above : ∃ v, c.error δ = .ok v ∧ tol < v
  before : ∀ j d, j < i → m.get? j = some d → ∃ v, d.error δ = .ok v ∧ ¬ tol < v

theorem FirstAbove.isFeasible_eq_false {m : LinearizedSet α} {δ : Assignment α} {tol : α} {i : ℕ}
    {c : LinearInequality α} (h : m.FirstAbove δ tol i c) : m.isFeasible δ tol = .ok false := by
  obtain ⟨cs⟩ := m
  obtain ⟨get, ⟨v, value, above⟩, before⟩ := h
  unfold get? at get before
  unfold isFeasible
  induction cs generalizing i with
  | nil => cases get
  | cons d cs ih =>
    cases i with
    | zero =>
      cases get
      simp [allWithin, value, bind, Except.bind, pure, Except.pure, above]
    | succ i =>
      obtain ⟨w, value_d, within⟩ := before 0 d (Nat.succ_pos i) rfl
      have later := ih (i := i) get fun j e below at_j => before (j + 1) e (Nat.succ_lt_succ below) at_j
      simpa [allWithin, value_d, bind, Except.bind, within] using later

end LinearizedSet

/-! ## Every row, in binary64 -/

/-- Every row of the inequality can be evaluated and is at most the tolerance. -/
def LinearInequality.RowsWithin (c : LinearInequality Float) (δ : Assignment Float) (tol : Float) : Prop :=
  ∃ rows, c.jacobian.errorVector δ = .ok rows ∧ ∀ e ∈ rows, e ≤ tol

namespace LinearizedSet

theorem rowsWithin_iff {c : LinearInequality Float} {δ : Assignment Float} {tol e : Float}
    {further : List Float} (rows : c.jacobian.errorVector δ = .ok (e :: further)) :
    c.RowsWithin δ tol ↔ ¬ tol < e ∧ tol ≠ Float.nan ∧ e ≠ Float.nan ∧ ∀ f ∈ further, f ≤ tol := by
  have within : c.RowsWithin δ tol ↔ e ≤ tol ∧ ∀ f ∈ further, f ≤ tol := by
    simp [LinearInequality.RowsWithin, rows]
  rw [within, Binary64.not_lt_iff]
  constructor
  · rintro ⟨first, others⟩
    exact ⟨.inl first, fun nan => Binary64.not_le_of_nan (.inr nan) first,
      fun nan => Binary64.not_le_of_nan (.inl nan) first, others⟩
  · rintro ⟨first | nan | nan, tolerance, value, others⟩
    · exact ⟨first, others⟩
    · exact absurd nan tolerance
    · exact absurd nan value

/-- The test accepts if no first row is above the tolerance, a NaN on either side included. The steps it
accepts for which every row holds are those without a NaN there and without a violated further row. -/
theorem isFeasible_eq_true_iff (s : LinearizedSet Float) (δ : Assignment Float) (tol : Float) :
    (s.isFeasible δ tol = .ok true ↔ ∀ c ∈ s.inequalities, ∃ e further,
      c.jacobian.errorVector δ = .ok (e :: further) ∧ (e ≤ tol ∨ tol = Float.nan ∨ e = Float.nan)) ∧
    ((∀ c ∈ s.inequalities, c.RowsWithin δ tol) ↔
      s.isFeasible δ tol = .ok true ∧ ∀ c ∈ s.inequalities, ∀ e further,
        c.jacobian.errorVector δ = .ok (e :: further) →
          tol ≠ Float.nan ∧ e ≠ Float.nan ∧ ∀ f ∈ further, f ≤ tol) := by
  have accepted : s.isFeasible δ tol = .ok true ↔ ∀ c ∈ s.inequalities, ∃ e further,
      c.jacobian.errorVector δ = .ok (e :: further) ∧ ¬ tol < e := by
    rw [isFeasible, allWithin_eq_true_iff]
    simp only [LinearInequality.error_eq_ok_iff, exists_and_right]
  refine ⟨by simp only [accepted, Binary64.not_lt_iff], ?_⟩
  rw [accepted]
  constructor
  · intro within
    refine ⟨fun c mem => ?_, fun c mem e further rows => ((rowsWithin_iff rows).mp (within c mem)).2⟩
    obtain ⟨rows, ok, _⟩ := within c mem
    obtain ⟨e, further, rfl⟩ := List.exists_cons_of_length_pos
      ((c.jacobian.length_errorVector δ ok).symm ▸ c.jacobian.rows_pos)
    exact ⟨e, further, ok, ((rowsWithin_iff ok).mp (within c mem)).1⟩
  · rintro ⟨first, others⟩ c mem
    obtain ⟨e, further, rows, notAbove⟩ := first c mem
    exact (rowsWithin_iff rows).mpr ⟨notAbove, others c mem e further rows⟩

/-- A right-hand side that is no number, and a second row above the tolerance behind a first one below. -/
def unchecked : LinearizedSet Float :=
  ⟨[{ jacobian := ⟨[], [Float.nan], List.cons_ne_nil _ _, fun _ mem => nomatch mem⟩, dualKey := ⟨7⟩ },
    { jacobian := ⟨[], [1.0, -1.0], List.cons_ne_nil _ _, fun _ mem => nomatch mem⟩, dualKey := ⟨8⟩ }]⟩

/-- Neither a NaN nor a violated further row keeps a step from being accepted. -/
theorem isFeasible_unchecked :
    unchecked.isFeasible ∅ 0.0 = .ok true ∧ ∀ c ∈ unchecked.inequalities, ¬ c.RowsWithin ∅ 0.0 := by
  refine ⟨rfl, ?_⟩
  simp only [unchecked, List.forall_mem_cons]
  refine ⟨?_, ?_, fun c mem => nomatch mem⟩
  · rintro ⟨rows, ok, within⟩
    obtain rfl : [0.0 - Float.nan] = rows := Except.ok.inj ok
    exact absurd (within _ List.mem_cons_self) (by decide)
  · rintro ⟨rows, ok, within⟩
    obtain rfl : [0.0 - 1.0, 0.0 - -1.0] = rows := Except.ok.inj ok
    exact absurd (within (0.0 - -1.0) (by simp)) (by decide)

end LinearizedSet

end InequalityLayer
