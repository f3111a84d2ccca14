import InequalityLayer.Constraint.Curvature
import InequalityLayer.Constraint.Linearization
import Mathlib

/-!
Outcomes of the passes over a set. Without its events a pass asks one constraint after the other and keeps
the answers: `outcome_linearizeFrom` for the linearization, `outcome_termsFrom` for the curvature terms, for
which only the active constraints are asked and an answer without a term leaves nothing. Asking all of a list
gives one answer for each element (`mapM_eq_ok_iff`) or the first error (`mapM_eq_error_iff`).
-/
namespace InequalityLayer
set_option autoImplicit false

/-! ## Asking all of a list -/

theorem mapM_cons_eq_ok_iff {ε β γ : Type} {f : β → Except ε γ} {b : β} {l : List β} {r : List γ} :
    (b :: l).mapM f = .ok r ↔
      ∃ first others, f b = .ok first ∧ l.mapM f = .ok others ∧ r = first :: others := by
  rw [List.mapM_cons]
  cases f b with
  | error e => simp [bind, Except.bind]
  | ok first => cases l.mapM f <;> simp [bind, Except.bind, pure, Except.pure, eq_comm]

theorem mapM_eq_ok_iff {ε β γ : Type} {f : β → Except ε γ} {l : List β} {r : List γ} :
    l.mapM f = .ok r ↔ List.Forall₂ (fun b c => f b = .ok c) l r := by
  induction l generalizing r with
  | nil => simp [pure, Except.pure, eq_comm]
  | cons b l ih =>
    rw [mapM_cons_eq_ok_iff, List.forall₂_cons_left_iff]
    simp only [ih]

theorem mapM_eq_map {ε β γ : Type} {f : β → Except ε γ} {l : List β} {g : β → γ}
    (answered : ∀ b ∈ l, f b = .ok (g b)) : l.mapM f = .ok (l.map g) :=
  mapM_eq_ok_iff.mpr (List.forall₂_map_right_iff.mpr (List.forall₂_same.mpr answered))

theorem exists_answer_of_mem {ε β γ : Type} {f : β → Except ε γ} {l : List β} {r : List γ} {b : β}
    (answered : l.mapM f = .ok r) (mem : b ∈ l) : ∃ c ∈ r, f b = .ok c := by
  rw [mapM_eq_ok_iff] at answered
  induction answered with
  | nil => cases mem
  | cons first _ ih =>
    rcases List.mem_cons.mp mem with rfl | later
    · exact ⟨_, List.mem_cons_self, first⟩
    · obtain ⟨c, there, same⟩ := ih later
      exact ⟨c, List.mem_cons_of_mem _ there, same⟩

/-- The first element without an answer gives the error, and those behind it are not asked. -/
theorem mapM_eq_error_iff {ε β γ : Type} {f : β → Except ε γ} {l : List β} {e : ε} :
    l.mapM f = .error e ↔
      ∃ before b after, l = before ++ b :: after ∧ (∀ d ∈ before, ∃ c, f d = .ok c) ∧ f b = .error e := by
  constructor
  · induction l with
    | nil => exact nofun
    | cons b l ih =>
      intro failed
      rw [List.mapM_cons] at failed
      cases first : f b with
      | error own =>
        rw [first] at failed
        cases failed
        exact ⟨[], b, l, rfl, nofun, first⟩
      | ok c =>
        have later : l.mapM f = .error e := by
          cases others : l.mapM f with
          | error own => rwa [first, others] at failed
          | ok r =>
            rw [first, others] at failed
            cases failed
        obtain ⟨before, b', after, rfl, answered, unanswered⟩ := ih later
        exact ⟨b :: before, b', after, rfl, List.forall_mem_cons.mpr ⟨⟨c, first⟩, answered⟩, unanswered⟩
  · rintro ⟨before, b, after, rfl, answered, unanswered⟩
    induction before with
    | nil => rw [List.nil_append, List.mapM_cons, unanswered]; rfl
    | cons d before ih =>
      obtain ⟨⟨c, first⟩, answered⟩ := List.forall_mem_cons.mp answered
      rw [List.cons_append, List.mapM_cons, first, ih answered]
      rfl

theorem exists_mapM_forall_iff {ε β γ : Type} {f : β → Except ε γ} {l : List β} {p : γ → Prop} :
    (∃ r, l.mapM f = .ok r ∧ ∀ c ∈ r, p c) ↔ ∀ b ∈ l, ∃ c, f b = .ok c ∧ p c := by
  induction l with
  | nil => simp [pure, Except.pure]
  | cons b l ih =>
    simp only [mapM_cons_eq_ok_iff, List.forall_mem_cons, ← ih]
    constructor
    · rintro ⟨_, ⟨c, r, first, others, rfl⟩, all⟩
      obtain ⟨here, later⟩ := List.forall_mem_cons.mp all
      exact ⟨⟨c, first, here⟩, r, others, later⟩
    · rintro ⟨⟨c, first, here⟩, r, others, later⟩
      exact ⟨c :: r, ⟨c, r, first, others, rfl⟩, List.forall_mem_cons.mpr ⟨here, later⟩⟩

theorem exists_mapM_eq_ok_iff {ε β γ : Type} {f : β → Except ε γ} {l : List β} :
    (∃ r, l.mapM f = .ok r) ↔ ∀ b ∈ l, ∃ c, f b = .ok c := by
  have answers := exists_mapM_forall_iff (f := f) (l := l) (p := fun _ => True)
  simpa only [implies_true, and_true] using answers

theorem mapM_congr {ε β γ : Type} {f g : β → Except ε γ} {l : List β} (same : ∀ b ∈ l, f b = g b) :
    l.mapM f = l.mapM g := by
  induction l with
  | nil => rfl
  | cons b l ih =>
    obtain ⟨first, others⟩ := List.forall_mem_cons.mp same
    rw [List.mapM_cons, List.mapM_cons, first, ih others]

namespace ConstraintSet

variable {α : Type}

theorem outcome_linearizeFrom [Scalar α] (x : Assignment α) (i : ℕ) (constraints : List (Constraint α)) :
    (linearizeFrom x i constraints).outcome = constraints.mapM fun c => c.inequality x := by
  induction constraints generalizing i with
  | nil => rfl
  | cons c rest ih =>
    simp only [linearizeFrom, List.mapM_cons, Pass.outcome_bind, Pass.outcome_lift, Pass.outcome_emit, ih]
    rfl

theorem outcome_linearize [Scalar α] (s : ConstraintSet α) (x : Assignment α) :
    (s.linearize x).outcome = LinearizedSet.mk <$> s.constraints.mapM fun c => c.inequality x := by
  simp only [linearize, Pass.outcome_bind, Pass.outcome_emit, outcome_linearizeFrom]
  cases s.constraints.mapM fun c => c.inequality x <;> rfl

def active (duals : Assignment α) (constraints : List (Constraint α)) : List (Constraint α) :=
  constraints.filter fun c => duals.contains c.dualKey

theorem active_cons (duals : Assignment α) (c : Constraint α) (rest : List (Constraint α)) :
    active duals (c :: rest) =
      if duals.contains c.dualKey then c :: active duals rest else active duals rest :=
  List.filter_cons

theorem outcome_termsFrom (x duals : Assignment α) (i : ℕ) (constraints : List (Constraint α)) :
    (termsFrom x duals i constraints).outcome =
      List.filterMap id <$> (active duals constraints).mapM fun c => c.contribution x duals := by
  induction constraints generalizing i with
  | nil => rfl
  | cons c rest ih =>
    rw [termsFrom, active_cons]
    cases duals.contains c.dualKey with
    | false =>
      rw [if_neg Bool.false_ne_true, if_neg Bool.false_ne_true]
      exact ih (i + 1)
    | true =>
      rw [if_pos rfl, if_pos rfl, List.mapM_cons, Pass.outcome_bind, Pass.outcome_lift]
      cases c.contribution x duals with
      | error e => rfl
      | ok answer =>
        cases answer with
        | none =>
          change (termsFrom x duals (i + 1) rest).outcome = _
          rw [ih]
          cases (active duals rest).mapM fun c => c.contribution x duals <;> rfl
        | some term =>
          change (termsFrom x duals (i + 1) rest >>= fun others => pure (term :: others)).outcome = _
          rw [Pass.outcome_bind, ih]
          cases (active duals rest).mapM fun c => c.contribution x duals <;> rfl

theorem outcome_lagrangianCorrection (s : ConstraintSet α) (x duals : Assignment α) :
    (s.lagrangianCorrection x duals).outcome =
      (fun answers => ⟨answers.filterMap id⟩) <$>
        (active duals s.constraints).mapM fun c => c.contribution x duals := by
  simp only [lagrangianCorrection, Pass.outcome_bind, Pass.outcome_emit, outcome_termsFrom]
  cases (active duals s.constraints).mapM fun c => c.contribution x duals <;> rfl

end ConstraintSet

end InequalityLayer
