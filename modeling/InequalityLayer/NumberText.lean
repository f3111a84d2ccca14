import InequalityLayer.Decimal.Rounded
import InequalityLayer.Decimal.Shortest

/-!
Written forms of the numbers in messages, trace lines and log events. All three show a number that is
none as `NaN` without a sign, an infinity as `inf`, and keep the sign of a zero.
-/
namespace InequalityLayer
set_option autoImplicit false

class NumberText (α : Type) where
  /-- The fewest digits that read back, with a fraction from `0.0001` to below `1e16` and an exponent
  elsewhere. -/
  exact : α → String
  /-- The fewest digits that read back, never with an exponent; a whole number has no fraction. -/
  plain : α → String
  /-- Seven significant digits and an exponent. -/
  sixPlaces : α → String

/-- Sign, the two special magnitudes and zero are shared by all forms; `positive` writes the rest. -/
def writeFloat (zero : String) (positive : Nat → Int → String) (x : Float) : String :=
  let number := Binary64.ofFloat x
  let sign := if number.negative then "-" else ""
  match number.magnitude with
  | .nan => "NaN"
  | .infinite => sign ++ "inf"
  | .finite significand exponent =>
    sign ++ if significand = 0 then zero else positive significand exponent

/-- The shortest decimal that reads back as `significand * 2 ^ exponent`. -/
def shortestDecimal (significand : Nat) (exponent : Int) : Decimal :=
  Decimal.shortest (binaryValue significand exponent) (roundingInterval significand exponent)

/-- Positional between `10 ^ (-4)` and `10 ^ 16`, with at least one digit after the point. -/
def Decimal.exact (d : Decimal) : String :=
  if -4 ≤ d.leading ∧ d.leading < 16 then
    if 0 ≤ d.exponent then d.positional ++ ".0" else d.positional
  else d.scientific d.digits.length

instance : NumberText Float where
  exact := writeFloat "0.0" fun m e => (shortestDecimal m e).exact
  plain := writeFloat "0" fun m e => (shortestDecimal m e).positional
  sixPlaces := writeFloat "0.000000e0" fun m e => (Decimal.rounded (binaryValue m e) 6).scientific 6

/-- Text moved to the right end of a field; a longer text is kept whole. -/
def alignRight (width : Nat) (s : String) : String :=
  String.ofList (List.replicate (width - s.length) ' ') ++ s

end InequalityLayer
