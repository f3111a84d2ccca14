import InequalityLayer.Failure

/-!
Keys made of a tag and an index. The tag has to be ASCII, so that it fits the top byte with room to
spare; the index is taken modulo the number of indices below one tag.
-/
namespace InequalityLayer
set_option autoImplicit false

/-- The key of a tag and an index in a build with debug assertions, where any other tag is a fault. A build
without them would keep the low byte of the tag. -/
def Key.symbol (tag : Char) (index : UInt64) : Except Fault Key :=
  if tag.toNat < 128 then
    .ok ⟨UInt64.ofNat (tag.toNat * Key.indexCount + index.toNat % Key.indexCount)⟩
  else .error (.nonAsciiTag tag)

end InequalityLayer
