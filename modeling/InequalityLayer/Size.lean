import InequalityLayer.Failure

/-!
Sizes and positions are 64-bit words, in a build with debug assertions and overflow checks. They are
computed as natural numbers and checked where they could leave the words: a sum or product that does is
a fault (without the checks it would wrap around), and so in every build is a vector whose bytes, eight
for each number, a signed word cannot count. Memory itself does not run out.
-/
namespace InequalityLayer.Size
set_option autoImplicit false

/-- The first number that is no word. -/
abbrev limit : Nat := 1 <<< 64

/-- The first length that no vector has. -/
abbrev vectorLimit : Nat := 1 <<< 60

def check (bound n : Nat) (otherwise : Fault) : Except Fault Unit :=
  if n < bound then .ok () else .error otherwise

def checkSum (sum : Nat) : Except Fault Unit := check limit sum .sumOverflow

def checkProduct (product : Nat) : Except Fault Unit := check limit product .productOverflow

def checkVector (length : Nat) : Except Fault Unit := check vectorLimit length .vectorTooLong

theorem check_eq_ok {bound n : Nat} (otherwise : Fault) (h : n < bound) :
    check bound n otherwise = .ok () := by
  simp [check, h]

theorem check_eq_error {bound n : Nat} (otherwise : Fault) (h : bound ≤ n) :
    check bound n otherwise = .error otherwise := by
  simp [check, Nat.not_lt.mpr h]

/-! ## Lengths of vectors -/

section Room

variable {n : Nat} (room : n < vectorLimit)
include room

theorem checkSum_of_room : checkSum n = .ok () := check_eq_ok _ (Nat.lt_trans room (by decide))

theorem checkProduct_of_room : checkProduct n = .ok () := check_eq_ok _ (Nat.lt_trans room (by decide))

theorem checkVector_of_room : checkVector n = .ok () := check_eq_ok _ room

end Room

end InequalityLayer.Size
