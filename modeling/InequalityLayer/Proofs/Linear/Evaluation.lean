import InequalityLayer.Proofs.Constraint.Passes
import InequalityLayer.Proofs.Linear.Feasibility
import Mathlib

/-!
Where coefficient rows can be built and evaluated. Terms are rejected for a missing row or for the first block that
is not made of whole rows (`Rejects`, `ofTerms_eq_error_iff`), and kept as they are otherwise. A step fits a term if
it leaves the term's variable out or moves it in as many coordinates as the block is wide; a product exists if the
step fits every term (`exists_multiply_iff`) and else reports the first it does not fit (`multiply_eq_error_iff`).
The value of an inequality is the first component of the error vector, errors included (`error_eq_head`).
-/
namespace InequalityLayer
set_option autoImplicit false

variable {α : Type}

namespace JacobianFactor

/-! ## Construction -/

/-- The terms do not fit the rows of the right-hand side, and the fault that says so. -/
inductive Rejects (terms : List (Key × List α)) (rhs : List α) : Fault → Prop
  | noRows : rhs = [] → Rejects terms rhs .noRows
  | ragged {before after : List (Key × List α)} {key : Key} {block : List α} : rhs ≠ [] →
      terms = before ++ (key, block) :: after → (∀ term ∈ before, rhs.length ∣ term.2.length) →
      ¬ rhs.length ∣ block.length → Rejects terms rhs (.raggedBlock key block.length rhs.length)

section Construction

variable {terms : List (Key × List α)} {rhs : List α}

theorem ofTerms_of_whole (nonempty : rhs ≠ []) (whole : ∀ term ∈ terms, rhs.length ∣ term.2.length) :
    ofTerms terms rhs = .ok ⟨terms, rhs, nonempty, whole⟩ := by
  unfold ofTerms
  rw [dif_pos nonempty]
  split
  next key block ragged =>
    have notDvd := List.find?_some ragged
    simp [whole _ (List.mem_of_find?_eq_some ragged)] at notDvd
  next => rfl

theorem ofTerms_of_ragged (nonempty : rhs ≠ []) {before after : List (Key × List α)} {key : Key} {block : List α}
    (split : terms = before ++ (key, block) :: after) (whole : ∀ term ∈ before, rhs.length ∣ term.2.length)
    (notDvd : ¬ rhs.length ∣ block.length) :
    ofTerms terms rhs = .error (.raggedBlock key block.length rhs.length) := by
  have found : (terms.find? fun term => decide ¬ rhs.length ∣ term.2.length) = some (key, block) := by
    rw [List.find?_eq_some_iff_append]
    exact ⟨by simpa using notDvd, before, after, split, fun term mem => by simpa using whole term mem⟩
  unfold ofTerms
  rw [dif_pos nonempty]
  split
  next ragged =>
    rw [found] at ragged
    cases ragged
    rfl
  next none =>
    rw [found] at none
    cases none

theorem ofTerms_of_rejects {f : Fault} (rejected : Rejects terms rhs f) : ofTerms terms rhs = .error f := by
  cases rejected with
  | noRows empty => rw [ofTerms, dif_neg (not_not.mpr empty)]
  | ragged nonempty split whole notDvd => exact ofTerms_of_ragged nonempty split whole notDvd

variable (terms rhs) in
/-- Either all terms are kept or one of them, or the right-hand side, is rejected. -/
theorem ofTerms_cases :
    (∃ J, ofTerms terms rhs = .ok J ∧ J.terms = terms ∧ J.rhs = rhs) ∨ ∃ f, Rejects terms rhs f := by
  by_cases empty : rhs = []
  · exact .inr ⟨_, .noRows empty⟩
  cases found : terms.find? fun term => decide ¬ rhs.length ∣ term.2.length with
  | none =>
    have whole : ∀ term ∈ terms, rhs.length ∣ term.2.length := by simpa using List.find?_eq_none.mp found
    exact .inl ⟨_, ofTerms_of_whole empty whole, rfl, rfl⟩
  | some term =>
    obtain ⟨notDvd, before, after, split, whole⟩ := List.find?_eq_some_iff_append.mp found
    exact .inr ⟨_, .ragged empty split (fun d mem => by simpa using whole d mem) (by simpa using notDvd)⟩

theorem ofTerms_eq_ok_iff {J : JacobianFactor α} :
    ofTerms terms rhs = .ok J ↔ J.terms = terms ∧ J.rhs = rhs := by
  constructor
  · intro ok
    obtain ⟨K, made, parts⟩ | ⟨f, rejected⟩ := ofTerms_cases terms rhs
    · obtain rfl := Except.ok.inj (made.symm.trans ok)
      exact parts
    · rw [ofTerms_of_rejects rejected] at ok
      cases ok
  · rintro ⟨rfl, rfl⟩
    exact ofTerms_of_whole J.rhs_ne_nil J.rows_dvd

theorem ofTerms_eq_error_iff {f : Fault} : ofTerms terms rhs = .error f ↔ Rejects terms rhs f := by
  refine ⟨fun failed => ?_, ofTerms_of_rejects⟩
  obtain ⟨J, made, _⟩ | ⟨g, rejected⟩ := ofTerms_cases terms rhs
  · rw [made] at failed
    cases failed
  · rw [ofTerms_of_rejects rejected, Except.error.injEq] at failed
    exact failed ▸ rejected

theorem exists_ofTerms_eq_error_iff :
    (∃ f, ofTerms terms rhs = .error f) ↔ rhs = [] ∨ ∃ term ∈ terms, ¬ rhs.length ∣ term.2.length := by
  constructor
  · rintro ⟨f, failed⟩
    cases ofTerms_eq_error_iff.mp failed with
    | noRows empty => exact .inl empty
    | ragged _ split _ notDvd => exact .inr ⟨_, split ▸ List.mem_append_cons_self, notDvd⟩
  · intro faulty
    obtain ⟨J, _, rfl, rfl⟩ | ⟨f, rejected⟩ := ofTerms_cases terms rhs
    · obtain empty | ⟨term, mem, notDvd⟩ := faulty
      · exact absurd empty J.rhs_ne_nil
      · exact absurd (J.rows_dvd term mem) notDvd
    · exact ⟨f, ofTerms_of_rejects rejected⟩

end Construction

/-! ## Steps that fit -/

section Steps

variable (J : JacobianFactor α) (δ : Assignment α)

/-- The step leaves the variable of a term out, or moves it in as many coordinates as the block is wide. -/
def Fits (term : Key × List α) : Prop := ∀ d, δ.get? term.1 = some d → d.length = J.width term.2

/-- The step moves the variable of a term in another number of coordinates, and the error that says so. -/
def Misfits (term : Key × List α) (e : ConstraintError α) : Prop :=
  ∃ d, δ.get? term.1 = some d ∧ d.length ≠ J.width term.2 ∧
    e = .dimensionMismatch term.1 (J.width term.2) d.length

/-- The first term that the step does not fit, and the error about it. -/
def FirstMisfit (e : ConstraintError α) : Prop :=
  ∃ before term after, J.terms = before ++ term :: after ∧ (∀ t ∈ before, J.Fits δ t) ∧ J.Misfits δ term e

variable {J δ} {term : Key × List α} {e : ConstraintError α}

theorem meet_of_fits (fits : J.Fits δ term) : J.meet δ term = .ok ((δ.get? term.1).map fun d => (term.2, d)) := by
  unfold meet
  cases move : δ.get? term.1 with
  | none => rfl
  | some d => simp [fits d move]

theorem exists_meet_iff : (∃ met, J.meet δ term = .ok met) ↔ J.Fits δ term := by
  refine ⟨?_, fun fits => ⟨_, meet_of_fits fits⟩⟩
  rintro ⟨met, ok⟩ d move
  by_contra other
  simp [meet, move, other] at ok

theorem meet_eq_error_iff : J.meet δ term = .error e ↔ J.Misfits δ term e := by
  unfold meet Misfits
  cases δ.get? term.1 with
  | none => simp
  | some d => by_cases same : d.length = J.width term.2 <;> simp [same, eq_comm]

theorem overlap_of_fits (fits : ∀ term ∈ J.terms, J.Fits δ term) :
    J.overlap δ = .ok (J.terms.filterMap fun term => (δ.get? term.1).map fun d => (term.2, d)) := by
  unfold overlap
  rw [mapM_eq_map fun term mem => meet_of_fits (fits term mem), Except.map_ok, List.filterMap_map]
  rfl

theorem exists_overlap_iff : (∃ pairs, J.overlap δ = .ok pairs) ↔ ∀ term ∈ J.terms, J.Fits δ term := by
  simp only [← exists_meet_iff, ← exists_mapM_eq_ok_iff, overlap]
  cases J.terms.mapM (J.meet δ) <;> simp

theorem overlap_eq_error_iff : J.overlap δ = .error e ↔ J.FirstMisfit δ e := by
  have first : J.overlap δ = .error e ↔ J.terms.mapM (J.meet δ) = .error e := by
    unfold overlap
    cases J.terms.mapM (J.meet δ) <;> simp
  rw [first, mapM_eq_error_iff, FirstMisfit]
  simp only [exists_meet_iff, meet_eq_error_iff]

variable [Scalar α]

theorem exists_multiply_iff : (∃ product, J.multiply δ = .ok product) ↔ ∀ term ∈ J.terms, J.Fits δ term := by
  rw [← exists_overlap_iff, multiply]
  cases J.overlap δ <;> simp

theorem multiply_eq_error_iff : J.multiply δ = .error e ↔ J.FirstMisfit δ e := by
  rw [← overlap_eq_error_iff, multiply]
  cases J.overlap δ <;> simp

theorem length_multiply {product : List α} (ok : J.multiply δ = .ok product) : product.length = J.rows := by
  unfold multiply at ok
  cases pairs : J.overlap δ with
  | error e =>
    rw [pairs] at ok
    cases ok
  | ok met =>
    rw [pairs, Except.map_ok, Except.ok.injEq] at ok
    rw [← ok, List.length_map, List.length_range]

end Steps

end JacobianFactor

/-! ## First rows -/

/-- The value is the first component of the error vector, and there is none for the same reason. -/
theorem LinearInequality.error_eq_head [Scalar α] (c : LinearInequality α) (δ : Assignment α) :
    (c.error δ).map some = (c.jacobian.errorVector δ).map List.head? := by
  obtain ⟨⟨terms, rhs, nonempty, dvd⟩, dualKey, active⟩ := c
  obtain ⟨b, bs, rfl⟩ := List.exists_cons_of_ne_nil nonempty
  unfold error bound product JacobianFactor.errorVector JacobianFactor.multiply JacobianFactor.rows
  cases JacobianFactor.overlap ⟨terms, b :: bs, nonempty, dvd⟩ δ with
  | error e => rfl
  | ok pairs => simp [List.range_succ_eq_map, Except.map]

end InequalityLayer
