import InequalityLayer.Key
import InequalityLayer.NumberText
import InequalityLayer.Scalar

/-!
Trace records: what one pass over a constraint set saw at one constraint. A pass fills in a row, which does
not say which pass it is. A record is written as one line of segments between bars; a segment is left out if
the pass did not look at what it shows.
-/
namespace InequalityLayer
set_option autoImplicit false

variable {α : Type}

structure TraceRecord (α : Type) where
  pass : String
  index : Nat
  dualKey : Key
  violation : Option α := none
  multiplier : Option α := none
  active : Option Bool := none
  note : Option String := none

structure TraceRow (α : Type) where
  index : Nat
  dualKey : Key
  violation : Option α := none
  multiplier : Option α := none
  active : Option Bool := none
  note : Option String := none

def TraceRow.record (row : TraceRow α) (pass : String) : TraceRecord α :=
  { pass, index := row.index, dualKey := row.dualKey, violation := row.violation
    multiplier := row.multiplier, active := row.active, note := row.note }

namespace TraceRecord

/-- The segments behind pass, position and dual key. -/
def segments [NumberText α] (r : TraceRecord α) : List String :=
  let number (label : String) (x : α) := label ++ alignRight 13 (NumberText.sixPlaces x)
  (r.violation.map (number "g ")).toList ++ (r.multiplier.map (number "lambda ")).toList ++
    (r.active.map fun active => if active then "active" else "inactive").toList ++
    (r.note.map ("note " ++ ·)).toList

def line [NumberText α] (r : TraceRecord α) : String :=
  let head := "[" ++ r.pass ++ "] #" ++ alignRight 4 (toString r.index)
  String.intercalate " | " (head :: ("dual " ++ r.dualKey.text) :: r.segments)

def agreesOption [Scalar α] : Option α → Option α → Bool
  | some x, some y => Scalar.agrees x y
  | none, none => true
  | _, _ => false

def agrees [Scalar α] (r s : TraceRecord α) : Bool :=
  r.pass == s.pass && r.index == s.index && decide (r.dualKey = s.dualKey) &&
    agreesOption r.violation s.violation && agreesOption r.multiplier s.multiplier &&
    r.active == s.active && r.note == s.note

end TraceRecord

end InequalityLayer
