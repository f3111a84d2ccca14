import InequalityLayer.Constraint.Set
import InequalityLayer.Constraint.Smooth
import InequalityLayer.Kkt.Status
import InequalityLayer.NumberText

/-!
One-line descriptions of values in log fields and diagnostics: a name with labelled fields between
braces, lists between brackets, and a word for an optional value that is missing. Keys are described by
their number.
-/
namespace InequalityLayer
set_option autoImplicit false

variable {α : Type}

/-! ## Shapes -/

def describeList (items : List String) : String := "[" ++ String.intercalate ", " items ++ "]"

def describeOption : Option String → String
  | some item => "Some(" ++ item ++ ")"
  | none => "None"

def describeRecord (name : String) (fields : List (String × String)) : String :=
  let labelled := fields.map fun field => field.1 ++ ": " ++ field.2
  name ++ " \x7b " ++ String.intercalate ", " labelled ++ " \x7d"

/-! ## Values -/

/-- A position in an ordered set, as a caller reads it. -/
def describePosition (index : Nat) : String := s!"#{index}"

def Key.describe (k : Key) : String := s!"Key({k.raw.toNat})"

def SmoothConstraint.describe [Scalar α] [NumberText α] (c : SmoothConstraint α) : String :=
  describeRecord "ScalarInequality" [
    ("keys", describeList (c.layout.keys.map Key.describe)),
    ("dims", describeList (c.layout.dims.map toString)),
    ("dual_key", c.dualKey.describe),
    ("analytic_hessian", toString c.hessian?.isSome),
    ("fd_step", NumberText.exact c.differenceStep)]

def ConstraintSet.describe (s : ConstraintSet α) : String :=
  describeRecord "NonlinearInequalityGraph" [
    ("dual_keys", describeList (s.dualKeys.map Key.describe))]

def Kkt.Status.describe [NumberText α] : Kkt.Status α → String
  | satisfied => "Satisfied"
  | failed defect index dualKey violation =>
    describeRecord defect.name [
      ("index", s!"ConstraintIndex({index})"),
      ("dual_key", dualKey.describe),
      ("violation", NumberText.exact violation)]

end InequalityLayer
