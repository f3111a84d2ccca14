import Std.Data.TreeMap

/-!
Names of variables and of dual variables. A `Key` is a 64-bit number; its top byte may hold a printing
ASCII tag, and the other 56 bits then number the variables that share the tag, so that `x1` reads as
tag `x`, index 1. Keys are ordered by their number, hence first by tag and then by index.
-/
namespace InequalityLayer
set_option autoImplicit false

structure Key where
  raw : UInt64
  deriving DecidableEq

namespace Key

instance : Ord Key where
  compare a b := compare a.raw b.raw

instance : Std.TransOrd Key where
  eq_swap {a b} := (Std.OrientedOrd.eq_swap : compare a.raw b.raw = (compare b.raw a.raw).swap)
  isLE_trans {a b c} (ab : (compare a.raw b.raw).isLE) (bc : (compare b.raw c.raw).isLE) :=
    (Std.TransOrd.isLE_trans ab bc : (compare a.raw c.raw).isLE)

instance : Std.LawfulEqOrd Key where
  compare_self {a} := (Std.ReflOrd.compare_self : compare a.raw a.raw = .eq)
  eq_of_compare {a b} (h : compare a.raw b.raw = .eq) := by
    cases a
    cases b
    exact congrArg Key.mk (Std.LawfulEqOrd.eq_of_compare h)

/-- The number of indices below one tag. -/
abbrev indexCount : Nat := 1 <<< 56

/-- Position among the keys with the same top byte. -/
def index (k : Key) : Nat := k.raw.toNat % indexCount

/-- The top byte, if it is a printing ASCII character. -/
def tag? (k : Key) : Option Char :=
  let code := k.raw.toNat / indexCount
  if 0x21 ≤ code ∧ code ≤ 0x7e then some (Char.ofNat code) else none

/-- Tag and index, or the whole number of a key without a tag. -/
def text (k : Key) : String :=
  match k.tag? with
  | some tag => tag.toString ++ toString k.index
  | none => toString k.raw.toNat

instance : ToString Key := ⟨text⟩

end Key

end InequalityLayer
