/-!
Binary64 numbers taken apart: sign, and a magnitude that is no number, infinite, or a whole multiple of
a power of two. `roundingInterval` holds the reals that round to such a magnitude: up to half a unit
away, a quarter below a power of two, where the spacing changes; the ends belong to it when the
significand is even.
-/
namespace InequalityLayer
set_option autoImplicit false

inductive Magnitude where
  | nan
  | infinite
  /-- The number `significand * 2 ^ exponent`. -/
  | finite (significand : Nat) (exponent : Int)
  deriving DecidableEq

structure Binary64 where
  negative : Bool
  magnitude : Magnitude
  deriving DecidableEq

namespace Binary64

def ofFloat (x : Float) : Binary64 :=
  let word := x.toBits.toNat
  let biased : Nat := word / 1 <<< 52 % 1 <<< 11
  let fraction : Nat := word % 1 <<< 52
  { negative := decide (1 <<< 63 ≤ word)
    magnitude :=
      if biased = 1 <<< 11 - 1 then if fraction = 0 then .infinite else .nan
      else if biased = 0 then .finite fraction (-1074)
      else .finite (1 <<< 52 + fraction) (biased - 1075) }

end Binary64

structure RoundingInterval where
  low : Rat
  high : Rat
  closed : Bool

namespace RoundingInterval

def Contains (I : RoundingInterval) (x : Rat) : Prop :=
  if I.closed then I.low ≤ x ∧ x ≤ I.high else I.low < x ∧ x < I.high

instance (I : RoundingInterval) (x : Rat) : Decidable (I.Contains x) := by
  unfold Contains
  infer_instance

end RoundingInterval

def binaryValue (significand : Nat) (exponent : Int) : Rat := significand * (2 : Rat) ^ exponent

/-- The reals whose nearest binary64 number, ties to the even significand, is the given one. -/
def roundingInterval (significand : Nat) (exponent : Int) : RoundingInterval :=
  let value := binaryValue significand exponent
  let half := (2 : Rat) ^ (exponent - 1)
  let narrow := significand = 1 <<< 52 ∧ -1074 < exponent
  { low := value - if narrow then half / 2 else half
    high := value + half
    closed := decide (significand % 2 = 0) }

end InequalityLayer
