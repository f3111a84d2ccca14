/-!
Decimal numbers and their two written forms. A `Decimal` is a coefficient and a power of ten;
`positional` writes it with a point among its digits, `scientific` with one digit before the point and
an exponent behind. Neither adds digits of its own except the zeros a positional form needs to reach
the point.
-/
namespace InequalityLayer
set_option autoImplicit false

/-- The number `coefficient * 10 ^ exponent`. -/
structure Decimal where
  coefficient : Nat
  exponent : Int
  deriving DecidableEq

namespace Decimal

def value (d : Decimal) : Rat := d.coefficient * (10 : Rat) ^ d.exponent

def digits (d : Decimal) : List Char := Nat.toDigits 10 d.coefficient

/-- The exponent of the leading digit. -/
def leading (d : Decimal) : Int := d.digits.length + d.exponent - 1

/-- The same number without zeros at the end of its coefficient. -/
def trimmed (d : Decimal) : Decimal :=
  if d.coefficient = 0 ∨ d.coefficient % 10 ≠ 0 then d
  else trimmed ⟨d.coefficient / 10, d.exponent + 1⟩
termination_by d.coefficient
decreasing_by omega

/-! ## Written forms -/

/-- Digits around a point; a whole number has neither point nor fraction. -/
def positional (d : Decimal) : String :=
  let ds := d.digits
  let point := ds.length + d.exponent
  if point ≤ 0 then "0." ++ String.ofList (List.replicate (-point).toNat '0' ++ ds)
  else if ds.length ≤ point then String.ofList (ds ++ List.replicate (point - ds.length).toNat '0')
  else String.ofList (ds.take point.toNat ++ '.' :: ds.drop point.toNat)

/-- The first digit, the next `places` after a point, and the exponent of the first. -/
def scientific (d : Decimal) (places : Nat) : String :=
  let fraction := (d.digits.drop 1).take places
  let point := if fraction.isEmpty then [] else ['.']
  String.ofList (d.digits.take 1 ++ point ++ fraction) ++ "e" ++ toString d.leading

end Decimal

/-! ## Magnitude of a rational number -/

/-- How many decimal digits a natural number has; zero has none. -/
def decimalLength (n : Nat) : Nat := if n = 0 then 0 else (Nat.toDigits 10 n).length

/-- The power of ten at or below a positive number. Below one, `10 ^ k` reaches `1 / x` first at the
length of the largest whole number that stays below `1 / x`. -/
def leadingPower (x : Rat) : Int :=
  if 1 ≤ x then decimalLength x.floor.toNat - 1
  else -(decimalLength ((1 / x).ceil.toNat - 1) : Int)

end InequalityLayer
