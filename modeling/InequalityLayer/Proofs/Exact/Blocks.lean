import InequalityLayer.Proofs.Exact.FirstOrder
import InequalityLayer.Proofs.Linear.Keys
import InequalityLayer.Proofs.Linear.Steps
import Mathlib

/-!
Quadratic forms by blocks of variables. A position counted along the stacked coordinates is a coordinate of one
variable behind all that stand before it (`Layout.offset`), so a sum over positions is one over variables and their
coordinates (`Layout.sum_positions`). Over the rationals the value of a form at a step is the sum over pairs of
blocks, with zeros for a variable the step leaves out (`HessianFactor.error_eq_blocks`). Main statement:
`LagrangianCorrection.forms_evaluated`, for single forms and for everything that pushing makes of them.
-/
namespace InequalityLayer
set_option autoImplicit false
open Finset

/-! ## Positions of coordinates -/

/-- Coordinate `i` of a variable in a step, zero if the step leaves the variable out. -/
def Assignment.moved (δ : Assignment ℚ) (key : Key) (i : ℕ) : ℚ := ((δ.get? key).getD []).getD i 0

namespace Layout

variable {L : Layout} {δ : Assignment ℚ}

/-- The number of coordinates in front of those of the variable at position `p`. -/
def offset (L : Layout) (p : ℕ) : ℕ := dim (L.take p)

theorem dim_cons (entry : Key × ℕ) (L : Layout) : dim (entry :: L) = entry.2 + dim L := rfl

theorem offset_zero (L : Layout) : L.offset 0 = 0 := rfl

theorem offset_succ (entry : Key × ℕ) (L : Layout) (p : ℕ) :
    offset (entry :: L) (p + 1) = entry.2 + L.offset p := by
  rw [offset, List.take_succ_cons, dim_cons, offset]

theorem sum_positions (L : Layout) (f : ℕ → ℚ) :
    ∑ r ∈ range L.dim, f r = ∑ p : Fin L.length, ∑ i ∈ range (L.get p).2, f (L.offset p + i) := by
  induction L generalizing f with
  | nil => rfl
  | cons entry L ih =>
    have others : ∀ (p : Fin L.length) (i : ℕ), offset (entry :: L) p.succ + i = entry.2 + (offset L p + i) :=
      fun p i => by rw [Fin.val_succ, offset_succ, Nat.add_assoc]
    calc ∑ r ∈ range (dim (entry :: L)), f r
        = ∑ i ∈ range entry.2, f i + ∑ r ∈ range (dim L), f (entry.2 + r) := by rw [dim_cons, sum_range_add]
      _ = ∑ i ∈ range entry.2, f (offset (entry :: L) 0 + i) +
            ∑ p : Fin L.length, ∑ i ∈ range (L.get p).2, f (offset (entry :: L) p.succ + i) := by
          simp only [ih, others, offset_zero, Nat.zero_add]
      _ = ∑ p : Fin (entry :: L).length, ∑ i ∈ range ((entry :: L).get p).2, f (offset (entry :: L) p + i) :=
          (Fin.sum_univ_succ fun p : Fin (L.length + 1) =>
            ∑ i ∈ range ((entry :: L).get p).2, f (offset (entry :: L) p + i)).symm

theorem getD_part (δ : Assignment ℚ) (entry : Key × ℕ) (i : ℕ) :
    ((δ.get? entry.1).getD (List.replicate entry.2 0)).getD i 0 = δ.moved entry.1 i := by
  unfold Assignment.moved
  cases δ.get? entry.1 with
  | none =>
    rw [Option.getD_none, List.getD_eq_getElem?_getD]
    exact List.getElem?_getD_replicate_default_eq ..
  | some d => rfl

/-- Coordinate `i` of the variable at position `p` stands behind those of all variables before. -/
theorem getD_coordinates (suits : ∀ entry ∈ L, δ.Suits entry) (p : Fin L.length) {i : ℕ} (below : i < (L.get p).2) :
    (δ.coordinates L).getD (L.offset p + i) 0 = δ.moved (L.get p).1 i := by
  induction L with
  | nil => exact p.elim0
  | cons entry L ih =>
    obtain ⟨here, later⟩ := List.forall_mem_cons.mp suits
    have length : ((δ.get? entry.1).getD (List.replicate entry.2 0)).length = entry.2 := by
      cases move : δ.get? entry.1 with
      | none => exact List.length_replicate
      | some d => exact here d move
    rw [Assignment.coordinates, List.flatMap_cons]
    cases p using Fin.cases with
    | zero =>
      have inside : i < ((δ.get? entry.1).getD (List.replicate entry.2 0)).length := length.symm ▸ below
      rw [Fin.val_zero, offset_zero, Nat.zero_add, List.getD_append _ _ _ _ inside, getD_part]
      rfl
    | succ p =>
      rw [Fin.val_succ, offset_succ, Nat.add_assoc, List.getD_append_right _ _ _ _ (by omega), length,
        Nat.add_sub_cancel_left]
      exact ih later p below

end Layout

/-! ## One form -/

namespace HessianFactor

section Construction

variable {α : Type} {L : Layout} {G g : List α} {f : α}

theorem assemble_eq_ok_iff {H : HessianFactor α} :
    assemble L G g f = .ok H ↔ H.layout = L ∧ H.curvature = G ∧ H.linear = g ∧ H.constant = f := by
  constructor
  · intro made
    unfold assemble at made
    split at made
    · split at made
      · cases made
        exact ⟨rfl, rfl, rfl, rfl⟩
      · cases made
    · cases made
  · rintro ⟨rfl, rfl, rfl, rfl⟩
    exact assemble_of_length H.length_curvature H.length_linear H.constant

theorem ofParts_eq_ok_iff {H : HessianFactor α} :
    ofParts L G g f = .ok H ↔ L.dim < Size.limit ∧ L.dim * L.dim < Size.limit ∧
      H.layout = L ∧ H.curvature = G ∧ H.linear = g ∧ H.constant = f := by
  rw [← assemble_eq_ok_iff]
  unfold ofParts Size.checkSum Size.checkProduct
  by_cases words : L.dim < Size.limit
  · by_cases entries : L.dim * L.dim < Size.limit
    · rw [Size.check_eq_ok _ words, Size.check_eq_ok _ entries]
      exact ⟨fun made => ⟨words, entries, made⟩, fun made => made.2.2⟩
    · rw [Size.check_eq_ok _ words, Size.check_eq_error _ (not_lt.mp entries)]
      exact iff_of_false nofun fun made => entries made.2.1
  · rw [Size.check_eq_error _ (not_lt.mp words)]
    exact iff_of_false nofun fun made => words made.1

end Construction

/-- The form `δᵀGδ` block by block. -/
def blockForm (L : Layout) (G : List ℚ) (δ : Assignment ℚ) : ℚ :=
  ∑ p : Fin L.length, ∑ q : Fin L.length, ∑ i ∈ range (L.get p).2, ∑ j ∈ range (L.get q).2,
    δ.moved (L.get p).1 i * entryOf G L.dim (L.offset p + i) (L.offset q + j) * δ.moved (L.get q).1 j

/-- The product `gᵀδ` block by block. -/
def blockProduct (L : Layout) (g : List ℚ) (δ : Assignment ℚ) : ℚ :=
  ∑ p : Fin L.length, ∑ i ∈ range (L.get p).2, g.getD (L.offset p + i) 0 * δ.moved (L.get p).1 i

variable {L : Layout} {δ : Assignment ℚ}

theorem quadraticForm_coordinates (suits : ∀ entry ∈ L, δ.Suits entry) (G : List ℚ) :
    quadraticForm G (δ.coordinates L) = blockForm L G δ := by
  have length := Layout.length_stackStep (Layout.stackStep_of_fits suits)
  rw [quadraticForm_eq_sum G length, Layout.sum_positions, blockForm]
  refine sum_congr rfl fun p _ => ?_
  simp only [Layout.sum_positions L]
  rw [sum_comm]
  refine sum_congr rfl fun q _ => sum_congr rfl fun i hi => sum_congr rfl fun j hj => ?_
  rw [Layout.getD_coordinates suits p (mem_range.mp hi), Layout.getD_coordinates suits q (mem_range.mp hj), entryOf,
    zero_rat]
  ring

theorem dot_coordinates (suits : ∀ entry ∈ L, δ.Suits entry) (g : List ℚ) :
    dot g (δ.coordinates L) = blockProduct L g δ := by
  have length := Layout.length_stackStep (Layout.stackStep_of_fits suits)
  rw [dot_eq_sum g length, Layout.sum_positions, blockProduct]
  refine sum_congr rfl fun p _ => sum_congr rfl fun i hi => ?_
  rw [Layout.getD_coordinates suits p (mem_range.mp hi)]

theorem error_eq_blocks {H : HessianFactor ℚ} (suits : ∀ entry ∈ H.layout, δ.Suits entry) :
    H.error δ = .ok (1 / 2 * blockForm H.layout H.curvature δ - blockProduct H.layout H.linear δ + H.constant) := by
  rw [error, Layout.stackStep_of_fits suits, Except.map_ok, quadraticForm_coordinates suits, dot_coordinates suits,
    half_rat]

end HessianFactor

/-! ## Sums of forms -/

namespace LagrangianCorrection

section Pushes

variable {α : Type} [Scalar α] {c : LagrangianCorrection α} {δ : Assignment α}

theorem error_eq_ok_iff {v : α} : c.error δ = .ok v ↔
    ∃ values, List.Forall₂ (fun term w => term.error δ = .ok w) c.terms values ∧ v = InequalityLayer.sum values := by
  simp only [error, ← mapM_eq_ok_iff]
  cases c.terms.mapM fun term => term.error δ <;> simp [eq_comm]

/-- The sum goes on from the value before the pushes. -/
theorem error_pushAll (c : LagrangianCorrection α) (terms : List (HessianFactor α)) (δ : Assignment α) :
    (c.pushAll terms).error δ = do
      let before ← c.error δ
      let values ← terms.mapM fun term => term.error δ
      return values.foldl (· + ·) before := by
  unfold error
  rw [terms_pushAll, List.mapM_append]
  cases c.terms.mapM fun term => term.error δ with
  | error e => rfl
  | ok first =>
    cases terms.mapM fun term => term.error δ with
    | error e => rfl
    | ok values => exact congrArg Except.ok (List.foldl_append ..)

end Pushes

theorem error_pushAll_rat (c d : LagrangianCorrection ℚ) (δ : Assignment ℚ) :
    (c.pushAll d.terms).error δ = do
      let first ← c.error δ
      let second ← d.error δ
      return first + second := by
  rw [error_pushAll]
  cases c.error δ with
  | error e => rfl
  | ok first =>
    unfold error
    cases d.terms.mapM fun term => term.error δ with
    | error e => rfl
    | ok values =>
      have total : values.foldl (· + ·) first = first + InequalityLayer.sum values :=
        calc values.foldl (· + ·) first
            = values.foldl (· + ·) (first + 0) := by rw [add_zero]
          _ = first + values.foldl (· + ·) 0 := List.foldl_assoc
          _ = first + InequalityLayer.sum values := by rw [sum_rat, List.sum_eq_foldl]
      exact congrArg Except.ok total

/-! ## Forms and their sums -/

/-- A form that has been accepted has a value at every step that does not move one of its variables in a wrong number
of coordinates, and reports the first it does. Over the rationals the value is `½ δᵀGδ - gᵀδ + f`, written out in the
blocks of the variables. What is pushed adds up in order, whatever the scalars are, up to the first form without a
value; more pushes go on from the sum that is there. So over the rationals the values of two corrections are added when
the terms of one are pushed onto the other. -/
theorem forms_evaluated :
    (∀ (α : Type) [Scalar α] (L : Layout) (G g : List α) (f : α) (H : HessianFactor α) (δ : Assignment α),
      HessianFactor.ofParts L G g f = .ok H →
        ((∃ v, H.error δ = .ok v) ↔ ∀ entry ∈ L, δ.Suits entry) ∧ ∀ e, H.error δ = .error e ↔ L.FirstClash δ e) ∧
    (∀ (L : Layout) (G g : List ℚ) (f : ℚ) (H : HessianFactor ℚ) (δ : Assignment ℚ),
      HessianFactor.ofParts L G g f = .ok H → (∀ entry ∈ L, δ.Suits entry) →
        H.error δ = .ok (1 / 2 * HessianFactor.blockForm L G δ - HessianFactor.blockProduct L g δ + f)) ∧
    (∀ (α : Type) [Scalar α] (terms : List (HessianFactor α)) (δ : Assignment α),
      (∀ v, (pushAll {} terms).error δ = .ok v ↔
        ∃ values, List.Forall₂ (fun term w => term.error δ = .ok w) terms values ∧ v = InequalityLayer.sum values) ∧
      ∀ e, (pushAll {} terms).error δ = .error e ↔ ∃ (before : List (HessianFactor α)) (term : HessianFactor α)
        (after : List (HessianFactor α)), terms = before ++ term :: after ∧
          (∀ t ∈ before, ∃ v, t.error δ = .ok v) ∧ term.error δ = .error e) ∧
    (∀ (α : Type) [Scalar α] (c d : LagrangianCorrection α) (δ : Assignment α), (c.pushAll d.terms).error δ = do
      let first ← c.error δ
      let values ← d.terms.mapM fun term => term.error δ
      return values.foldl (· + ·) first) ∧
    ∀ (c d : LagrangianCorrection ℚ) (δ : Assignment ℚ), (c.pushAll d.terms).error δ = do
      let first ← c.error δ
      let second ← d.error δ
      return first + second := by
  refine ⟨fun α _ L G g f H δ made => ?_, fun L G g f H δ made suits => ?_, fun α _ terms δ => ?_,
    fun α _ c d δ => error_pushAll c d.terms δ, error_pushAll_rat⟩
  · obtain ⟨_, _, rfl, _⟩ := HessianFactor.ofParts_eq_ok_iff.mp made
    exact ⟨HessianFactor.exists_error_iff, fun e => HessianFactor.error_eq_error_iff⟩
  · obtain ⟨_, _, rfl, rfl, rfl, rfl⟩ := HessianFactor.ofParts_eq_ok_iff.mp made
    exact HessianFactor.error_eq_blocks suits
  · have pushed : (pushAll {} terms).terms = terms := terms_pushAll {} terms
    constructor
    · intro v
      rw [error_eq_ok_iff, pushed]
    · intro e
      rw [error_eq_error_iff, pushed]

/-- One variable twice, with another one between that has no coordinates. -/
def repeatedLayout : Layout := [(⟨1⟩, 1), (⟨2⟩, 0), (⟨1⟩, 1), (⟨3⟩, 2)]

def repeatedCurvature : List ℚ := [1, 2, 3, 4, 0, 5, 6, 7, 1, 1, 1, 1, 0, 0, 0, 9]

/-- The last variable is left out, and that with no coordinates has an entry. -/
def alongFirst : Assignment ℚ := .ofList [(⟨1⟩, [2]), (⟨2⟩, [])]

/-- A coordinate of the last variable is missing. -/
def tooShort : Assignment ℚ := .ofList [(⟨1⟩, [2]), (⟨3⟩, [1])]

theorem forms_evaluated_repeated :
    ∃ H, HessianFactor.ofParts repeatedLayout repeatedCurvature [1, 0, 2, 1] 3 = .ok H ∧
      H.error alongFirst = .ok (1 / 2 * (4 * (1 + 2 + 0 + 5)) - 2 * (1 + 0) + 3) ∧
      H.error tooShort = .error (.dimensionMismatch ⟨3⟩ 2 1) ∧
      (pushAll ⟨[H]⟩ [H, H]).error alongFirst = .ok (17 + (17 + 17)) := by
  obtain ⟨errors, values, pushed, _, added⟩ := forms_evaluated
  obtain ⟨H, made⟩ : ∃ H, HessianFactor.ofParts repeatedLayout repeatedCurvature [1, 0, 2, 1] 3 = .ok H := ⟨_, rfl⟩
  have suits : ∀ entry ∈ repeatedLayout, alongFirst.Suits entry := by decide
  have value : H.error alongFirst = .ok (1 / 2 * (4 * (1 + 2 + 0 + 5)) - 2 * (1 + 0) + 3) := by
    rw [values _ _ _ _ H alongFirst made suits]
    decide +kernel
  refine ⟨H, made, value, ?_, ?_⟩
  · refine ((errors ℚ _ _ _ _ H tooShort made).2 _).mpr ?_
    exact ⟨repeatedLayout.take 3, (⟨3⟩, 2), [], rfl, by decide, [1], rfl, by decide, rfl⟩
  · have single : (pushAll {} [H]).error alongFirst = .ok 17 :=
      ((pushed ℚ [H] alongFirst).1 17).mpr ⟨_, .cons value .nil, by decide +kernel⟩
    have twice : (pushAll {} [H, H]).error alongFirst = .ok (17 + 17) :=
      ((pushed ℚ [H, H] alongFirst).1 (17 + 17)).mpr ⟨_, .cons value (.cons value .nil), by decide +kernel⟩
    have all := added (pushAll {} [H]) (pushAll {} [H, H]) alongFirst
    rwa [single, twice] at all

end LagrangianCorrection

end InequalityLayer
