import InequalityLayer.Constraint.Set
import InequalityLayer.Trace.Pass

/-!
The test for first-order optimality at a point. Every constraint has to be feasible within a tolerance,
and a constraint with an entry among the duals has to be binding within it as well. The test stops at
the first constraint that fails; a report holds its verdict, the number of constraints looked at, and on
request what was seen at each of them.
-/
namespace InequalityLayer
set_option autoImplicit false

variable {α : Type}

namespace Kkt

/-! ## Options and reports -/

structure Options (α : Type) [Scalar α] where
  tol : α := 1e-6
  collectTrace : Bool := false

/-- Only a collected trace is kept while it is logged. -/
def Options.tracer [Scalar α] (options : Options α) : Tracer α :=
  if options.collectTrace then .withHistory "kkt" else { pass := "kkt" }

structure Report (α : Type) where
  status : Status α
  checked : Nat
  trace : Option (List (TraceRecord α))

def Report.agrees (r s : Report Float) : Bool :=
  r.status.agrees s.status && r.checked == s.checked &&
    match r.trace, s.trace with
    | some t, some u => t.isEqv u TraceRecord.agrees
    | none, none => true
    | _, _ => false

def Report.isSatisfied (r : Report α) : Bool :=
  match r.status with
  | .satisfied => true
  | .failed .. => false

/-! ## The test -/

/-- What is wrong with one constraint, if anything. -/
def defect? [Scalar α] (tol : α) (active : Bool) (violation : α) : Option Defect :=
  if !Scalar.isFinite violation then some .nonFinite
  else if tol < violation then some .infeasible
  else if active ∧ tol < Scalar.abs violation then some .notBinding
  else none

/-- A value that is not a finite number is worth a warning. -/
def Defect.warnings (dualKey : Key) (violation : α) : Defect → List (Event α)
  | nonFinite => [.nonFinite dualKey violation]
  | _ => []

variable [Scalar α]

/-- The test on a list of constraints, the first of which stands at position `i`. `checked` counts the
constraints that have a value; the last of them decides, or none does. -/
def testFrom (x duals : Assignment α) (tol : α) :
    Tracer α → Nat → Nat → List (Constraint α) → Pass α (Status α × Nat × Tracer α)
  | tracer, checked, _, [] => pure (.satisfied, checked, tracer)
  | tracer, checked, i, c :: rest => do
    let violation ← c.violation x
    let active := duals.contains c.dualKey
    let checked := checked + 1
    let row : TraceRow α :=
      { index := i, dualKey := c.dualKey, violation := some violation, active := some active }
    match defect? tol active violation with
    | some defect =>
      Pass.log (defect.warnings c.dualKey violation)
      let tracer ← tracer.emit { row with note := some defect.note }
      return (.failed defect i c.dualKey violation, checked, tracer)
    | none =>
      let tracer ← tracer.emit row
      testFrom x duals tol tracer checked (i + 1) rest

end Kkt

namespace ConstraintSet

variable [Scalar α]

open Kkt in
def kktReport (s : ConstraintSet α) (x duals : Assignment α) (options : Options α) :
    Pass α (Report α) := do
  let (status, checked, tracer) ← testFrom x duals options.tol options.tracer 0 0 s.constraints
  match status with
  | .satisfied => Pass.emit (.kktSatisfied checked options.tol)
  | .failed .. => Pass.emit (.kktFailed status options.tol)
  return { status, checked, trace := tracer.history }

/-- Whether every constraint is feasible and every active one is binding. -/
def isKkt (s : ConstraintSet α) (x duals : Assignment α) (tol : α) : Pass α Bool :=
  Kkt.Report.isSatisfied <$> s.kktReport x duals { tol }

end ConstraintSet

end InequalityLayer
