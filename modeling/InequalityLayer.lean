import InequalityLayer.Assignment
import InequalityLayer.Constraint.Basic
import InequalityLayer.Constraint.Curvature
import InequalityLayer.Constraint.Linearization
import InequalityLayer.Constraint.Merit
import InequalityLayer.Constraint.Set
import InequalityLayer.Constraint.Smooth
import InequalityLayer.Decimal.Basic
import InequalityLayer.Decimal.Binary64
import InequalityLayer.Decimal.Rounded
import InequalityLayer.Decimal.Shortest
import InequalityLayer.Failure
import InequalityLayer.Key
import InequalityLayer.Key.Symbol
import InequalityLayer.Kkt.Check
import InequalityLayer.Kkt.Status
import InequalityLayer.Layout
import InequalityLayer.Linear.Dense
import InequalityLayer.Linear.Factor
import InequalityLayer.Linear.Hessian
import InequalityLayer.Linear.Inequality
import InequalityLayer.Linear.Jacobian
import InequalityLayer.NumberText
import InequalityLayer.Proofs.Binary64.Comparison
import InequalityLayer.Proofs.Binary64.Order
import InequalityLayer.Proofs.Binary64.Packing
import InequalityLayer.Proofs.Binary64.Rounding
import InequalityLayer.Proofs.Binary64.Sum
import InequalityLayer.Proofs.Binary64.Zero
import InequalityLayer.Proofs.Constraint.AcceptedSteps
import InequalityLayer.Proofs.Constraint.Additions
import InequalityLayer.Proofs.Constraint.Curvature
import InequalityLayer.Proofs.Constraint.Differences
import InequalityLayer.Proofs.Constraint.Domain
import InequalityLayer.Proofs.Constraint.Expansion
import InequalityLayer.Proofs.Constraint.Linearization
import InequalityLayer.Proofs.Constraint.Merit
import InequalityLayer.Proofs.Constraint.Ownership
import InequalityLayer.Proofs.Constraint.Passes
import InequalityLayer.Proofs.Constraint.SecondDerivative
import InequalityLayer.Proofs.Constraint.Smooth
import InequalityLayer.Proofs.Constraint.Terms
import InequalityLayer.Proofs.Constraint.ZeroMerit
import InequalityLayer.Proofs.Exact.Assembly
import InequalityLayer.Proofs.Exact.Blocks
import InequalityLayer.Proofs.Exact.Cubic
import InequalityLayer.Proofs.Exact.Curvature
import InequalityLayer.Proofs.Exact.Dense
import InequalityLayer.Proofs.Exact.FirstOrder
import InequalityLayer.Proofs.Exact.LocalModel
import InequalityLayer.Proofs.Exact.Quadratic
import InequalityLayer.Proofs.Exact.Rows
import InequalityLayer.Proofs.Exact.Taylor
import InequalityLayer.Proofs.Key.Packing
import InequalityLayer.Proofs.Key.Text
import InequalityLayer.Proofs.Kkt.Merit
import InequalityLayer.Proofs.Kkt.Relaxation
import InequalityLayer.Proofs.Kkt.Repetition
import InequalityLayer.Proofs.Kkt.Runs
import InequalityLayer.Proofs.Kkt.Tolerance
import InequalityLayer.Proofs.Kkt.Trace
import InequalityLayer.Proofs.Kkt.Verdict
import InequalityLayer.Proofs.Kkt.ZeroStep
import InequalityLayer.Proofs.Linear.Absent
import InequalityLayer.Proofs.Linear.Entries
import InequalityLayer.Proofs.Linear.Evaluation
import InequalityLayer.Proofs.Linear.Feasibility
import InequalityLayer.Proofs.Linear.Flags
import InequalityLayer.Proofs.Linear.PlainForm
import InequalityLayer.Proofs.Linear.Steps
import InequalityLayer.Proofs.Passes.Dependence
import InequalityLayer.Proofs.Passes.Events
import InequalityLayer.Proofs.Passes.Permutation
import InequalityLayer.Proofs.Positions.Average
import InequalityLayer.Proofs.Positions.Dense
import InequalityLayer.Proofs.Positions.Factors
import InequalityLayer.Proofs.Positions.Faults
import InequalityLayer.Proofs.Positions.Smooth
import InequalityLayer.Proofs.Text.Words
import InequalityLayer.Proofs.Trace.Line
import InequalityLayer.Proofs.Writes
import InequalityLayer.Scalar
import InequalityLayer.Size
import InequalityLayer.Text.Description
import InequalityLayer.Text.Invisible
import InequalityLayer.Trace.Event
import InequalityLayer.Trace.Pass
import InequalityLayer.Trace.Record
import InequalityLayer.Proofs.Kkt.Records
