import InequalityLayer.Proofs.Constraint.Domain
import InequalityLayer.Proofs.Linear.Steps
import Mathlib

/-!
One domain and one point for all answers of a smooth constraint. Cut along a layout, a vector of its dimension gives
parts of the right lengths that make it up again (`Layout.shape_split`, `Layout.flatten_split`); so the row of a
constraint has the layout of the constraint, and its blocks are the gradient (`SmoothConstraint.isRowAt_rowAt`).
Main statement: `SmoothConstraint.answers_together`, the value, the row and the term under a multiplier are taken at
the same stacked point, or fail alike.
-/
namespace InequalityLayer
set_option autoImplicit false

variable {α : Type}

/-! ## Entries of dual variables -/

namespace Assignment

variable {duals : Assignment α} {key : Key}

theorem scalar?_of_entry {multiplier : α} {others : List α} (entry : duals.get? key = some (multiplier :: others)) :
    duals.scalar? key = some multiplier := by
  rw [scalar?, entry, Option.bind_some, List.head?_cons]

theorem scalar?_of_silent (silent : duals.get? key = none ∨ duals.get? key = some []) :
    duals.scalar? key = none := by
  obtain absent | empty := silent
  · rw [scalar?, absent, Option.bind_none]
  · rw [scalar?, empty, Option.bind_some, List.head?_nil]

end Assignment

/-! ## Parts of a stacked vector -/

namespace Layout

variable {L : Layout} {v : List α}

theorem shape_split (length : v.length = L.dim) : (L.split v).map (fun part => (part.1, part.2.length)) = L := by
  induction L generalizing v with
  | nil => rfl
  | cons entry L ih =>
    obtain ⟨key, dim⟩ := entry
    have enough : v.length = dim + Layout.dim L := length
    rw [split, List.map_cons, ih (by rw [List.length_drop]; omega), List.length_take_of_le (by omega)]

theorem flatten_split (length : v.length = L.dim) : ((L.split v).map Prod.snd).flatten = v := by
  induction L generalizing v with
  | nil => exact (List.eq_nil_of_length_eq_zero length).symm
  | cons entry L ih =>
    obtain ⟨key, dim⟩ := entry
    have enough : v.length = dim + Layout.dim L := length
    rw [split, List.map_cons, List.flatten_cons, ih (by rw [List.length_drop]; omega), List.take_append_drop]

end Layout

namespace SmoothConstraint

variable [Scalar α] (c : SmoothConstraint α)

/-! ## Models at a stacked point -/

/-- One row: minus the value on the right, and the gradient cut into blocks along the layout. -/
structure IsRowAt (y : List α) (J : JacobianFactor α) : Prop where
  rows : J.rows = 1
  rhs : J.rhs = [-c.value y]
  layout : J.layout = c.layout
  blocks : (J.terms.map Prod.snd).flatten = c.gradientAt y

variable {c} {x duals : Assignment α} {y : List α}

theorem length_gradientAt (length : y.length = c.layout.dim) : (c.gradientAt y).length = c.layout.dim :=
  (length_overwrite _ _).trans ((length_zeros _).trans length)

theorem isRowAt_rowAt (length : y.length = c.layout.dim) : c.IsRowAt y (c.rowAt y) where
  rows := rfl
  rhs := rfl
  layout := by
    refine Eq.trans ?_ (Layout.shape_split (length_gradientAt length))
    apply List.map_congr_left
    intro part _
    exact congrArg (Prod.mk part.1) (Nat.div_one _)
  blocks := Layout.flatten_split (length_gradientAt length)

/-! ## All answers -/

/-- Why there are no stacked coordinates: the point lacks a variable, or there is no room. -/
theorem stack_error_cases {e : Failure α} (failed : c.stack x = .error e) :
    (c.layout.dim < Size.vectorLimit → ∃ reported, e = .error reported ∧ c.layout.FirstLack x reported) ∧
      (Size.vectorLimit ≤ c.layout.dim → ∃ broken, e = .fault broken) := by
  refine ⟨fun room => ?_, fun large => ?_⟩
  · cases point : c.layout.stackPoint x with
    | ok y =>
      rw [stack_of_room c room, point] at failed
      cases failed
    | error reported =>
      rw [stack_of_room c room, point] at failed
      exact ⟨reported, (Except.error.inj failed).symm, Layout.stackPoint_eq_error_iff.mp point⟩
  · obtain ⟨broken, fault⟩ := c.stack_of_no_room (x := x) large
    exact ⟨broken, Except.error.inj (failed.symm.trans fault)⟩

/-- With an entry for its dual variable that has a first component, a constraint gives its value, its row and its
term, all at the stacked point, or the same failure three times: an error about the first variable that the point
lacks, or a fault where there is no room for the coordinates. Only the term can fail alone, with a fault where there
is no room for a square matrix over the coordinates. Without such an entry there is no term, whatever the point
is. -/
theorem answers_together (c : SmoothConstraint α) (x duals : Assignment α) :
    (∀ multiplier others, duals.get? c.dualKey = some (multiplier :: others) →
      (∃ y J, c.layout.stackPoint x = .ok y ∧ c.violation x = .ok (c.value y) ∧
        c.linearize x = .ok (.jacobian J) ∧ c.IsRowAt y J ∧
        (c.HasRoom → ∃ H, c.contribution x duals = .ok (some H) ∧ c.IsTermAt y multiplier H) ∧
        (¬ c.HasRoom → ∃ broken, c.contribution x duals = .error (.fault broken))) ∨
      ∃ e, c.violation x = .error e ∧ c.linearize x = .error e ∧ c.contribution x duals = .error e ∧
        (c.layout.dim < Size.vectorLimit → ∃ reported, e = .error reported ∧ c.layout.FirstLack x reported) ∧
        (Size.vectorLimit ≤ c.layout.dim → ∃ broken, e = .fault broken)) ∧
    (duals.get? c.dualKey = none ∨ duals.get? c.dualKey = some [] → c.contribution x duals = .ok none) := by
  constructor
  · intro multiplier others entry
    have weighted := Assignment.scalar?_of_entry entry
    cases stacked : c.stack x with
    | ok y =>
      refine .inl ⟨y, c.rowAt y, (c.stack_eq_ok_iff.mp stacked).2, ?_, ?_,
        isRowAt_rowAt (c.length_of_stack stacked), fun room => c.contribution_of_stack weighted room stacked,
        fun large => c.contribution_of_no_room weighted large stacked⟩
      · rw [violation_eq, stacked]
        rfl
      · rw [linearize_eq, stacked]
        rfl
    | error e =>
      refine .inr ⟨e, ?_, ?_, c.contribution_of_failure weighted stacked, stack_error_cases stacked⟩
      · rw [violation_eq, stacked]
        rfl
      · rw [linearize_eq, stacked]
        rfl
  · exact fun silent => c.contribution_of_none (Assignment.scalar?_of_silent silent)

/-- A variable with another one on both sides. -/
def sandwiched : SmoothConstraint ℚ where
  layout := [(⟨2⟩, 1), (⟨1⟩, 2), (⟨2⟩, 1)]
  dualKey := ⟨7⟩
  value y := y.sum - 1
  gradient y _ := y.map (2 * ·)

/-- One variable is missing, and the other has a coordinate too few. -/
def incomplete : Assignment ℚ := .ofList [(⟨1⟩, [3])]

theorem answers_together_sandwiched :
    (∃ J H, sandwiched.linearize (.ofList [(⟨1⟩, [3, 4]), (⟨2⟩, [5])]) = .ok (.jacobian J) ∧ J.rhs = [-16] ∧
      (J.terms.map Prod.snd).flatten = [10, 6, 8, 10] ∧
      sandwiched.contribution (.ofList [(⟨1⟩, [3, 4]), (⟨2⟩, [5])]) (.ofList [(⟨7⟩, [2])]) = .ok (some H) ∧
      H.layout = sandwiched.layout) ∧
    sandwiched.linearize incomplete = .error (.error (.missingVariable ⟨2⟩)) ∧
    sandwiched.contribution incomplete (.ofList [(⟨7⟩, [2])]) = .error (.error (.missingVariable ⟨2⟩)) ∧
    sandwiched.contribution incomplete (.ofList [(⟨7⟩, [])]) = .ok none := by
  refine ⟨?_, ?_⟩
  · obtain ⟨together, _⟩ := answers_together sandwiched (.ofList [(⟨1⟩, [3, 4]), (⟨2⟩, [5])]) (.ofList [(⟨7⟩, [2])])
    obtain ⟨y, J, point, _, linear, row, terms, _⟩ | ⟨e, failed, _⟩ := together 2 [] rfl
    · obtain rfl : [5, 3, 4, 5] = y := Except.ok.inj point
      obtain ⟨H, term, model⟩ := terms (show 4 * 4 < Size.vectorLimit by decide)
      exact ⟨J, H, linear, row.rhs.trans (by decide +kernel), row.blocks.trans (by decide +kernel), term, model.layout⟩
    · cases failed
  · obtain ⟨together, _⟩ := answers_together sandwiched incomplete (.ofList [(⟨7⟩, [2])])
    obtain ⟨_, silent⟩ := answers_together sandwiched incomplete (.ofList [(⟨7⟩, [])])
    refine and_assoc.mp ⟨?_, silent (.inr rfl)⟩
    obtain ⟨y, _, point, _⟩ | ⟨e, failed, linear, term, _⟩ := together 2 [] rfl
    · cases point
    · obtain rfl : .error (.missingVariable ⟨2⟩) = e := Except.error.inj failed
      exact ⟨linear, term⟩

end SmoothConstraint

end InequalityLayer
