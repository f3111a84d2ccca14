import InequalityLayer.Key
import Mathlib

/-!
Keys by their numbers. The order of keys is total and antisymmetric (`eq_of_raw_le`), so a list in strictly increasing
order of keys is known by its members (`eq_of_increasing`).
-/
namespace InequalityLayer.Key
set_option autoImplicit false

variable {k l : Key}

theorem compare_eq_lt_iff_raw_lt : compare k l = .lt ↔ k.raw < l.raw := compareOfLessAndEq_eq_lt

theorem eq_of_raw_le (le : k.raw ≤ l.raw) (ge : l.raw ≤ k.raw) : k = l := by
  cases k
  cases l
  exact congrArg Key.mk (UInt64.le_antisymm le ge)

theorem raw_lt_of_ne (le : k.raw ≤ l.raw) (ne : k ≠ l) : k.raw < l.raw :=
  UInt64.not_le.mp fun ge => ne (eq_of_raw_le le ge)

theorem eq_of_increasing {β : Type} {key : β → Key} {entries others : List β}
    (increasing : entries.Pairwise fun e f => (key e).raw < (key f).raw)
    (also_increasing : others.Pairwise fun e f => (key e).raw < (key f).raw)
    (same : ∀ e, e ∈ entries ↔ e ∈ others) : entries = others := by
  have : Std.Irrefl fun e f : β => (key e).raw < (key f).raw := ⟨fun e => UInt64.lt_irrefl (key e).raw⟩
  have : Std.Antisymm fun e f : β => (key e).raw < (key f).raw :=
    ⟨fun e f first second => absurd second (UInt64.lt_asymm first)⟩
  exact increasing.eq_of_mem_iff also_increasing same

end InequalityLayer.Key
