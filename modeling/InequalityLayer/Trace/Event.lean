import InequalityLayer.Text.Description
import InequalityLayer.Trace.Record

/-!
Log events of the passes over a constraint set. A pass reports each constraint it visits at the finest
level, a warning where a value is not a finite number, and a summary at the end. Level, message and
fields of an event follow from what it reports.
-/
namespace InequalityLayer
set_option autoImplicit false

variable {α : Type}

inductive Level where
  | trace
  | debug
  | warning
  deriving DecidableEq

def Level.name : Level → String
  | trace => "TRACE"
  | debug => "DEBUG"
  | warning => "WARN"

/-- A field of an event: a count, a number of the computation, or a text. -/
inductive FieldValue (α : Type) where
  | count (n : Nat)
  | number (x : α)
  | text (s : String)

inductive Event (α : Type) where
  | visited (record : TraceRecord α)
  | nonFinite (dualKey : Key) (violation : α)
  | linearized (constraints : Nat)
  | curvatureSummed (active constraints : Nat)
  | kktSatisfied (checked : Nat) (tol : α)
  | kktFailed (status : Kkt.Status α) (tol : α)

namespace Event

def level : Event α → Level
  | visited _ => .trace
  | nonFinite _ _ => .warning
  | _ => .debug

variable [NumberText α]

def message : Event α → String
  | visited record => record.line
  | nonFinite _ _ => "non-finite constraint violation"
  | linearized _ => "linearized inequality constraints"
  | curvatureSummed _ _ => "aggregated constraint Hessian corrections"
  | kktSatisfied _ _ => "KKT conditions satisfied"
  | kktFailed _ _ => "KKT conditions not satisfied"

def fields : Event α → List (String × FieldValue α)
  | visited record => [
      ("pass", .text record.pass),
      ("index", .count record.index),
      ("dual_key", .text record.dualKey.text),
      ("violation", .text (describeOption (record.violation.map NumberText.exact))),
      ("multiplier", .text (describeOption (record.multiplier.map NumberText.exact)))]
  | nonFinite dualKey violation => [("dual_key", .text dualKey.text), ("violation", .number violation)]
  | linearized constraints => [("constraints", .count constraints)]
  | curvatureSummed active constraints =>
    [("active", .count active), ("constraints", .count constraints)]
  | kktSatisfied checked tol => [("checked", .count checked), ("tol", .number tol)]
  | kktFailed status tol => [("failed", .text status.describe), ("tol", .number tol)]

end Event

end InequalityLayer
