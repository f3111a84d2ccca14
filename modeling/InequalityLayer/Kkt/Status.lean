import InequalityLayer.Key

/-!
Verdicts of the test for first-order optimality. A verdict names the first constraint that fails and in
which way: its value exceeds the tolerance, it has a multiplier and is not binding, or its value is not a
finite number. Verdicts are compared by their parts, and violations there by their bits, so that a
verdict about a NaN agrees with itself. All NaNs have the same bits here; a payload is not modelled.
-/
namespace InequalityLayer.Kkt
set_option autoImplicit false

inductive Defect where
  | infeasible
  | notBinding
  | nonFinite
  deriving DecidableEq

/-- The number that tells the kinds of failing verdicts apart. -/
def Defect.tag : Defect → UInt8
  | infeasible => 0
  | notBinding => 1
  | nonFinite => 2

def Defect.note : Defect → String
  | infeasible => "infeasible"
  | notBinding => "not_binding"
  | nonFinite => "non_finite"

def Defect.name : Defect → String
  | infeasible => "Infeasible"
  | notBinding => "NotBinding"
  | nonFinite => "NonFinite"

inductive Status (α : Type) where
  | satisfied
  | failed (defect : Defect) (index : Nat) (dualKey : Key) (violation : α)
  deriving DecidableEq

namespace Status

/-- What verdicts are compared by: tag, position, dual key and the bits of the violation. -/
def parts : Status Float → Option (UInt8 × Nat × Key × UInt64)
  | satisfied => none
  | failed defect index dualKey violation => some (defect.tag, index, dualKey, violation.toBits)

def agrees (r s : Status Float) : Bool := decide (r.parts = s.parts)

end Status

end InequalityLayer.Kkt
