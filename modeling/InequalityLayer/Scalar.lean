/-!
Numbers the layer computes with. `Scalar` holds the operations its evaluators use and nothing else, so
one definition is read in binary64 and over exact rationals.

Equality comes in two kinds. `=` tells two numbers apart whenever a later operation could (a zero from
its negative); `Scalar.agrees` is the comparison a computation itself makes, in which both zeros agree
and a NaN agrees with nothing. There is one NaN: the payloads in which the bits of two NaNs can differ
are outside the model, also where numbers are compared by their bits. Main statements: over the rationals `agrees` is
equality (`agrees_rat`), and the constants of the evaluators are the numbers they look like
(`zero_rat`, `half_rat`, `two_rat`).
-/
namespace InequalityLayer
set_option autoImplicit false

class Scalar (α : Type) extends Add α, Sub α, Mul α, Div α, Neg α, OfScientific α, LT α where
  decEq : DecidableEq α
  decLt : DecidableLT α
  abs : α → α
  isFinite : α → Bool
  agrees : α → α → Bool

instance (priority := low) Scalar.decidableEq {α : Type} [Scalar α] : DecidableEq α := Scalar.decEq

instance (priority := low) Scalar.decidableLT {α : Type} [Scalar α] : DecidableLT α := Scalar.decLt

/-- Binary64 arithmetic: every operation is rounded once. -/
instance : Scalar Float where
  decEq := inferInstance
  decLt := inferInstance
  abs := Float.abs
  isFinite := Float.isFinite
  agrees x y := x == y

/-- Exact arithmetic. -/
instance : Scalar Rat where
  decEq := inferInstance
  decLt := inferInstance
  abs := Rat.abs
  isFinite _ := true
  agrees x y := decide (x = y)

/-! ## Exact arithmetic -/

theorem agrees_rat (x y : Rat) : Scalar.agrees x y = true ↔ x = y := decide_eq_true_iff

theorem isFinite_rat (x : Rat) : Scalar.isFinite x = true := rfl

theorem zero_rat : (0.0 : Rat) = 0 := by decide +kernel

theorem half_rat : (0.5 : Rat) = 1 / 2 := by decide +kernel

theorem two_rat : (2.0 : Rat) = 2 := by decide +kernel

end InequalityLayer
