import InequalityLayer.Proofs.Key.Packing
import Mathlib

/-!
Keys are told apart by their texts, unless a digit is used as a tag. Two texts with a tag agree only if tag and index do,
and two without one only if the numbers do. A text with a tag and one without begin alike only if the tag is a digit
(`text_eq_cases`). Main statement: `text_injective`.
-/
namespace InequalityLayer.Key
set_option autoImplicit false

variable {k l : Key} {tag other : Char}

/-- The tag is a decimal digit, so that the text reads like a number. -/
def DigitTagged (k : Key) : Prop := k.tag?.any Char.isDigit = true

instance (k : Key) : Decidable k.DigitTagged := inferInstanceAs (Decidable (_ = true))

theorem toList_text_of_tag (tagged : k.tag? = some tag) : k.text.toList = tag :: Nat.toDigits 10 k.index := by
  have written : k.text = tag.toString ++ k.index.repr := by
    rw [text, tagged]
    rfl
  rw [written, String.toList_append, Nat.toList_repr, Char.toString_eq_singleton, String.toList_singleton]
  rfl

theorem toList_text_of_untagged (untagged : k.tag? = none) : k.text.toList = Nat.toDigits 10 k.raw.toNat := by
  have written : k.text = k.raw.toNat.repr := by
    rw [text, untagged]
    rfl
  rw [written, Nat.toList_repr]

theorem toDigits_injective : Function.Injective (Nat.toDigits 10) :=
  Function.LeftInverse.injective fun _ => Nat.ofDigitChars_ten_toDigits

theorem eq_of_tagged (tagged : k.tag? = some tag) (others : l.tag? = some other) (same : k.text = l.text) : k = l := by
  have lists := congrArg String.toList same
  rw [toList_text_of_tag tagged, toList_text_of_tag others, List.cons.injEq] at lists
  obtain ⟨rfl, digits⟩ := lists
  obtain ⟨byte, _⟩ := tag?_eq_some_iff.mp tagged
  obtain ⟨byte', _⟩ := tag?_eq_some_iff.mp others
  exact eq_iff.mpr ⟨byte.trans byte'.symm, toDigits_injective digits⟩

theorem eq_of_untagged (untagged : k.tag? = none) (others : l.tag? = none) (same : k.text = l.text) : k = l := by
  have lists := congrArg String.toList same
  rw [toList_text_of_untagged untagged, toList_text_of_untagged others] at lists
  cases k
  cases l
  exact congrArg Key.mk (UInt64.toNat_inj.mp (toDigits_injective lists))

/-- A number begins with a digit, so a text that reads like it has a digit for its tag. -/
theorem digitTagged_of_text_eq (tagged : k.tag? = some tag) (untagged : l.tag? = none) (same : k.text = l.text) :
    k.DigitTagged := by
  have lists := congrArg String.toList same
  rw [toList_text_of_tag tagged, toList_text_of_untagged untagged] at lists
  have first : tag ∈ Nat.toDigits 10 l.raw.toNat := lists ▸ List.mem_cons_self
  rw [DigitTagged, tagged]
  exact Nat.isDigit_of_mem_toDigits (by decide) le_rfl first

/-- Keys that share a text are the same, or one of them has a digit for a tag and the other one has no tag. -/
theorem text_eq_cases (same : k.text = l.text) :
    k = l ∨ (k.DigitTagged ∧ l.tag? = none) ∨ (k.tag? = none ∧ l.DigitTagged) := by
  cases tagged : k.tag? with
  | some tag =>
    cases others : l.tag? with
    | some other => exact .inl (eq_of_tagged tagged others same)
    | none => exact .inr (.inl ⟨digitTagged_of_text_eq tagged others same, rfl⟩)
  | none =>
    cases others : l.tag? with
    | some other => exact .inr (.inr ⟨rfl, digitTagged_of_text_eq others tagged same.symm⟩)
    | none => exact .inl (eq_of_untagged tagged others same)

/-- Tag `1` and index 5 read like the number fifteen. -/
example : (⟨0x3100000000000005⟩ : Key).text = (⟨15⟩ : Key).text := by decide

/-- Without digits for tags, keys with one text are one key. -/
theorem text_injective (k l : Key) (letter : ¬ k.DigitTagged) (also_letter : ¬ l.DigitTagged) :
    k.text = l.text ↔ k = l := by
  constructor
  · intro same
    obtain eq | ⟨digit, _⟩ | ⟨_, digit⟩ := text_eq_cases same
    · exact eq
    · exact absurd digit letter
    · exact absurd digit also_letter
  · rintro rfl
    rfl

/-- One index below two tags, and the index itself as a key. -/
theorem text_injective_sameIndex :
    (⟨0x7800000000000001⟩ : Key).text ≠ (⟨0x7900000000000001⟩ : Key).text ∧
    (⟨0x7800000000000001⟩ : Key).text ≠ (⟨1⟩ : Key).text :=
  ⟨mt (text_injective _ _ (by decide) (by decide)).mp (by decide),
    mt (text_injective _ _ (by decide) (by decide)).mp (by decide)⟩

end InequalityLayer.Key
