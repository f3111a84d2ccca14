import InequalityLayer.Proofs.Key.Text
import Mathlib

/-!
Words: texts that a blank ends. Blanks in front of a word, as they come from its alignment to the right, and whatever
follows it behind a blank can be taken off again (`takeWord_alignRight`). Numbers without a sign, the texts of keys and the
six-place texts of numbers are words: `isWord_toDigits`, `isWord_text`, `isWord_sixPlaces`.
-/
namespace InequalityLayer
set_option autoImplicit false

/-- Some characters, no blank among them. -/
structure IsWord (w : List Char) : Prop where
  nonempty : w ≠ []
  unbroken : ' ' ∉ w

/-- Where a word can end: with the text or at a blank. -/
def EndsWord (rest : List Char) : Prop := ∀ c ∈ rest.head?, c = ' '

/-- The first word of a text and what follows it. -/
def takeWord (cs : List Char) : List Char × List Char := (cs.dropWhile (· == ' ')).span (· != ' ')

variable {w : List Char}

/-! ## Taking a word off -/

theorem IsWord.append {u : List Char} (unbroken : ' ' ∉ u) (word : IsWord w) : IsWord (u ++ w) where
  nonempty := List.append_ne_nil_of_right_ne_nil u word.nonempty
  unbroken := by
    rw [List.mem_append]
    exact not_or_intro unbroken word.unbroken

/-- What stands in front of a character, up to its first place. -/
theorem span_absent {c : Char} {rest : List Char} (absent : c ∉ w) (stops : ∀ d ∈ rest.head?, d = c) :
    (w ++ rest).span (· != c) = (w, rest) := by
  have inside : ∀ d ∈ w, (d != c) = true := fun d here => bne_iff_ne.mpr fun same => absent (same ▸ here)
  rw [List.span_eq_takeWhile_dropWhile, List.takeWhile_append_of_pos inside, List.dropWhile_append_of_pos inside]
  cases rest with
  | nil => simp
  | cons d rest =>
    obtain rfl : d = c := stops d rfl
    simp

theorem takeWord_blanks (n : ℕ) {rest : List Char} (word : IsWord w) (ends : EndsWord rest) :
    takeWord (List.replicate n ' ' ++ (w ++ rest)) = (w, rest) := by
  have blanks : ∀ c ∈ List.replicate n ' ', (c == ' ') = true := fun c here =>
    beq_iff_eq.mpr (List.eq_of_mem_replicate here)
  have start : (w ++ rest).dropWhile (· == ' ') = w ++ rest := by
    cases w with
    | nil => exact absurd rfl word.nonempty
    | cons c w =>
      have first : c ≠ ' ' := fun blank => word.unbroken (blank ▸ List.mem_cons_self)
      rw [List.cons_append, List.dropWhile_cons_of_neg (by simpa using first)]
  rw [takeWord, List.dropWhile_append_of_pos blanks, start, span_absent word.unbroken ends]

theorem takeWord_append {rest : List Char} (word : IsWord w) (ends : EndsWord rest) :
    takeWord (w ++ rest) = (w, rest) :=
  takeWord_blanks 0 word ends

theorem takeWord_alignRight (width : ℕ) {s : String} {rest : List Char} (word : IsWord s.toList)
    (ends : EndsWord rest) : takeWord ((alignRight width s).toList ++ rest) = (s.toList, rest) := by
  rw [alignRight, String.toList_append, String.toList_ofList, List.append_assoc, takeWord_blanks _ word ends]

/-! ## Texts that are words -/

theorem isWord_toDigits (n : ℕ) : IsWord (Nat.toDigits 10 n) where
  nonempty := Nat.toDigits_ne_nil
  unbroken := fun blank => absurd (Nat.isDigit_of_mem_toDigits (by decide) le_rfl blank) (by decide)

theorem isWord_int (k : ℤ) : IsWord (toString k).toList := by
  change IsWord k.repr.toList
  rw [Int.repr_eq_if]
  split
  · rw [Nat.toList_repr]
    exact isWord_toDigits _
  · rw [String.toList_append, Nat.toList_repr]
    exact (isWord_toDigits _).append (by decide)

theorem Key.isWord_text (k : Key) : IsWord k.text.toList := by
  cases tagged : k.tag? with
  | none =>
    rw [toList_text_of_untagged tagged]
    exact isWord_toDigits _
  | some tag =>
    rw [toList_text_of_tag tagged]
    refine (isWord_toDigits k.index).append (u := [tag]) fun blank => ?_
    obtain ⟨_, printing, _⟩ := tag?_eq_some_iff.mp tagged
    rw [← List.mem_singleton.mp blank] at printing
    exact absurd printing (by decide)

theorem Decimal.isWord_scientific (d : Decimal) (places : ℕ) : IsWord (d.scientific places).toList := by
  have digits : ' ' ∉ d.digits := (isWord_toDigits d.coefficient).unbroken
  have point (b : Bool) : ' ' ∉ if b then [] else ['.'] := by cases b <;> decide
  unfold scientific
  rw [String.toList_append, String.toList_append, String.toList_ofList, List.append_assoc]
  refine ((isWord_int d.leading).append (by decide)).append ?_
  rw [List.mem_append, List.mem_append]
  rintro ((first | dot) | later)
  · exact digits (List.mem_of_mem_take first)
  · exact point _ dot
  · exact digits (List.mem_of_mem_drop (List.mem_of_mem_take later))

theorem isWord_writeFloat {zero : String} {positive : ℕ → ℤ → String} (zeroWord : IsWord zero.toList)
    (words : ∀ m e, IsWord (positive m e).toList) (x : Float) : IsWord (writeFloat zero positive x).toList := by
  have sign (b : Bool) {s : String} (word : IsWord s.toList) : IsWord ((if b then "-" else "") ++ s).toList := by
    rw [String.toList_append]
    exact word.append (by cases b <;> decide)
  have notANumber : IsWord "NaN".toList := ⟨by decide, by decide⟩
  have infinity : IsWord "inf".toList := ⟨by decide, by decide⟩
  unfold writeFloat
  dsimp only
  cases (Binary64.ofFloat x).magnitude with
  | nan => exact notANumber
  | infinite => exact sign _ infinity
  | finite m e =>
    refine sign _ ?_
    split
    · exact zeroWord
    · exact words m e

theorem isWord_sixPlaces (x : Float) : IsWord (NumberText.sixPlaces x).toList :=
  isWord_writeFloat ⟨by decide, by decide⟩ (fun _ _ => Decimal.isWord_scientific _ _) x

end InequalityLayer
