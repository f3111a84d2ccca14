import InequalityLayer.Linear.Hessian
import InequalityLayer.Proofs.Linear.Evaluation
import InequalityLayer.Proofs.Stacking
import Mathlib

/-!
Which steps a linear model accepts. A step suits a layout entry if it leaves the variable out or moves it in as many
coordinates as the entry says, and the first entry it does not suit is the one that is reported
(`Layout.FirstClash`). Stacking fails for this reason alone (`Layout.stackStep_eq_error_iff`), so a quadratic form
does (`HessianFactor.error_eq_error_iff`). The layout of coefficient rows is their variables with the widths of
their blocks; products fail where it clashes with the step (`JacobianFactor.multiply_eq_error_iff_firstClash`,
`LinearInequality.product_eq_error_iff`).
-/
namespace InequalityLayer
set_option autoImplicit false

variable {α : Type}

/-! ## The first element at fault -/

section First

variable {β γ : Type} {l : List β}

theorem first_of_map {f : β → γ} {fine faulty : γ → Prop} :
    (∃ before c after, l.map f = before ++ c :: after ∧ (∀ d ∈ before, fine d) ∧ faulty c) ↔
      ∃ before b after, l = before ++ b :: after ∧ (∀ d ∈ before, fine (f d)) ∧ faulty (f b) := by
  constructor
  · rintro ⟨before, c, after, split, others, here⟩
    obtain ⟨first, rest, rfl, rfl, tail⟩ := List.map_eq_append_iff.mp split
    obtain ⟨b, last, rfl, rfl, rfl⟩ := List.map_eq_cons_iff.mp tail
    exact ⟨first, b, last, rfl, List.forall_mem_map.mp others, here⟩
  · rintro ⟨before, b, after, rfl, others, here⟩
    exact ⟨before.map f, f b, after.map f, List.map_append, List.forall_mem_map.mpr others, here⟩

/-- In a filtered list it is the first that passes the filter, whatever those are like that do not. -/
theorem first_of_filter {p : β → Bool} {fine faulty : β → Prop} :
    (∃ before b after, l.filter p = before ++ b :: after ∧ (∀ d ∈ before, fine d) ∧ faulty b) ↔
      ∃ before b after, l = before ++ b :: after ∧ (∀ d ∈ before, p d = true → fine d) ∧ p b = true ∧ faulty b := by
  constructor
  · rintro ⟨before, b, after, split, others, here⟩
    obtain ⟨first, rest, rfl, rfl, tail⟩ := List.filter_eq_append_iff.mp split
    obtain ⟨skipped, last, rfl, silent, kept, rfl⟩ := List.filter_eq_cons_iff.mp tail
    refine ⟨first ++ skipped, b, last, (List.append_assoc ..).symm, fun d mem asked => ?_, kept, here⟩
    obtain early | late := List.mem_append.mp mem
    · exact others d (List.mem_filter.mpr ⟨early, asked⟩)
    · exact absurd asked (silent d late)
  · rintro ⟨before, b, after, rfl, others, kept, here⟩
    refine ⟨before.filter p, b, after.filter p, ?_, fun d mem => ?_, here⟩
    · rw [List.filter_append, List.filter_cons_of_pos kept]
    · obtain ⟨early, asked⟩ := List.mem_filter.mp mem
      exact others d early asked

theorem first_iff_getElem? {fine faulty : β → Prop} :
    (∃ before b after, l = before ++ b :: after ∧ (∀ d ∈ before, fine d) ∧ faulty b) ↔
      ∃ (i : ℕ) (b : β), l[i]? = some b ∧ (∀ (j : ℕ) (d : β), j < i → l[j]? = some d → fine d) ∧ faulty b := by
  constructor
  · rintro ⟨before, b, after, rfl, others, here⟩
    refine ⟨before.length, b, by simp, fun j d below at_j => ?_, here⟩
    rw [List.getElem?_append_left below] at at_j
    exact others d (List.mem_of_getElem? at_j)
  · rintro ⟨i, b, at_i, others, here⟩
    obtain ⟨below, rfl⟩ := List.getElem?_eq_some_iff.mp at_i
    refine ⟨l.take i, l[i], l.drop (i + 1), ?_, fun d mem => ?_, here⟩
    · rw [List.getElem_cons_drop, List.take_append_drop]
    · obtain ⟨j, earlier, rfl⟩ := List.mem_take_iff_getElem.mp mem
      exact others j _ (lt_of_lt_of_le earlier (min_le_left ..)) (List.getElem?_eq_getElem _)

end First

/-! ## One variable -/

namespace Assignment

/-- The step leaves the variable out, or moves it in as many coordinates as the layout entry says. -/
def Suits (δ : Assignment α) (entry : Key × ℕ) : Prop := ∀ d, δ.get? entry.1 = some d → d.length = entry.2

instance (δ : Assignment α) (entry : Key × ℕ) : Decidable (δ.Suits entry) :=
  inferInstanceAs (Decidable (∀ d ∈ δ.get? entry.1, d.length = entry.2))

/-- The step moves the variable in another number of coordinates, and the error that says so. -/
def Clashes (δ : Assignment α) (entry : Key × ℕ) (e : ConstraintError α) : Prop :=
  ∃ d, δ.get? entry.1 = some d ∧ d.length ≠ entry.2 ∧ e = .dimensionMismatch entry.1 entry.2 d.length

end Assignment

/-! ## Layouts -/

namespace Layout

/-- The first entry that the step does not suit, and the error about it. -/
def FirstClash (L : Layout) (δ : Assignment α) (e : ConstraintError α) : Prop :=
  ∃ before entry after, L = before ++ entry :: after ∧ (∀ p ∈ before, δ.Suits p) ∧ δ.Clashes entry e

variable [Scalar α] {L : Layout} {δ : Assignment α} {entry : Key × ℕ} {e : ConstraintError α}

theorem exists_stepPart_iff : (∃ d, stepPart δ entry = .ok d) ↔ δ.Suits entry := by
  unfold stepPart Assignment.Suits
  cases δ.get? entry.1 with
  | none => simp
  | some d => by_cases same : d.length = entry.2 <;> simp [sized, same]

theorem stepPart_eq_error_iff : stepPart δ entry = .error e ↔ δ.Clashes entry e := by
  unfold stepPart Assignment.Clashes
  cases δ.get? entry.1 with
  | none => simp
  | some d => by_cases same : d.length = entry.2 <;> simp [sized, same, @eq_comm _ e]

theorem exists_stackStep_iff : (∃ d, L.stackStep δ = .ok d) ↔ ∀ entry ∈ L, δ.Suits entry := by
  simp only [← exists_stepPart_iff, ← exists_mapM_eq_ok_iff, stackStep]
  cases L.mapM (stepPart δ) <;> simp

theorem stackStep_eq_error_iff : L.stackStep δ = .error e ↔ L.FirstClash δ e := by
  simp only [FirstClash, ← exists_stepPart_iff, ← stepPart_eq_error_iff, ← mapM_eq_error_iff, stackStep]
  cases L.mapM (stepPart δ) <;> simp

end Layout

/-! ## Quadratic forms -/

namespace HessianFactor

variable [Scalar α] {H : HessianFactor α} {δ : Assignment α}

theorem exists_error_iff : (∃ v, H.error δ = .ok v) ↔ ∀ entry ∈ H.layout, δ.Suits entry := by
  rw [← Layout.exists_stackStep_iff, error]
  cases H.layout.stackStep δ <;> simp

theorem error_eq_error_iff {e : ConstraintError α} : H.error δ = .error e ↔ H.layout.FirstClash δ e := by
  rw [← Layout.stackStep_eq_error_iff, error]
  cases H.layout.stackStep δ <;> simp

end HessianFactor

theorem LagrangianCorrection.error_eq_error_iff [Scalar α] {c : LagrangianCorrection α} {δ : Assignment α}
    {e : ConstraintError α} : c.error δ = .error e ↔ ∃ before term after, c.terms = before ++ term :: after ∧
      (∀ t ∈ before, ∃ v, t.error δ = .ok v) ∧ term.error δ = .error e := by
  rw [← mapM_eq_error_iff, error]
  cases c.terms.mapM fun term => term.error δ <;> simp

/-! ## Coefficient rows -/

namespace JacobianFactor

/-- The variable of a term with the width of its block. -/
def entry (J : JacobianFactor α) (term : Key × List α) : Key × ℕ := (term.1, J.width term.2)

def layout (J : JacobianFactor α) : Layout := J.terms.map J.entry

variable {J : JacobianFactor α} {δ : Assignment α} {e : ConstraintError α}

theorem forall_suits_iff : (∀ entry ∈ J.layout, δ.Suits entry) ↔ ∀ term ∈ J.terms, J.Fits δ term :=
  List.forall_mem_map

theorem firstMisfit_iff : J.FirstMisfit δ e ↔ J.layout.FirstClash δ e :=
  (@first_of_map _ _ J.terms J.entry δ.Suits (δ.Clashes · e)).symm

variable [Scalar α]

theorem multiply_eq_error_iff_firstClash : J.multiply δ = .error e ↔ J.layout.FirstClash δ e :=
  multiply_eq_error_iff.trans firstMisfit_iff

end JacobianFactor

namespace LinearInequality

variable [Scalar α] {q : LinearInequality α} {δ : Assignment α}

theorem exists_product_iff : (∃ v, q.product δ = .ok v) ↔ ∀ entry ∈ q.jacobian.layout, δ.Suits entry := by
  rw [JacobianFactor.forall_suits_iff, ← JacobianFactor.exists_overlap_iff, product]
  cases q.jacobian.overlap δ <;> simp

theorem product_eq_error_iff {e : ConstraintError α} :
    q.product δ = .error e ↔ q.jacobian.layout.FirstClash δ e := by
  rw [← JacobianFactor.firstMisfit_iff, ← JacobianFactor.overlap_eq_error_iff, product]
  cases q.jacobian.overlap δ <;> simp

end LinearInequality

end InequalityLayer
