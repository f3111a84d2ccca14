import InequalityLayer.Key.Symbol
import InequalityLayer.Proofs.Key.Order
import Mathlib

/-!
Keys as a tag and an index in one word. A key is known by its top byte and its index (`eq_iff`), and compared by the top
byte first (`compare_eq_lt_iff`). An ASCII tag is the top byte of its symbols (`symbol_eq_ok_iff`), so tag and index can be
read back, and symbols are ordered as their tags and indices are. Masks and shifts of words do the same
(`symbol_eq_packed`, `toNat_masked`, `tag?_eq_shifted`). Main statement: `symbol_packs`.
-/
namespace InequalityLayer.Key
set_option autoImplicit false

variable {k l : Key} {tag : Char} {index : UInt64}

/-! ## Top byte and index -/

/-- The number in the eight bits above the index. -/
def topByte (k : Key) : ℕ := k.raw.toNat / indexCount

theorem indexCount_eq : indexCount = 2 ^ 56 := rfl

theorem index_lt (k : Key) : k.index < indexCount := Nat.mod_lt _ (by decide)

theorem raw_eq (k : Key) : k.raw.toNat = k.topByte * indexCount + k.index := (Nat.div_add_mod' _ _).symm

theorem eq_iff : k = l ↔ k.topByte = l.topByte ∧ k.index = l.index := by
  constructor
  · rintro rfl
    exact ⟨rfl, rfl⟩
  · rintro ⟨bytes, indices⟩
    have words : k.raw.toNat = l.raw.toNat := by rw [raw_eq, raw_eq, bytes, indices]
    cases k
    cases l
    exact congrArg Key.mk (UInt64.toNat_inj.mp words)

theorem compare_eq_lt_iff : compare k l = .lt ↔
    k.topByte < l.topByte ∨ k.topByte = l.topByte ∧ k.index < l.index := by
  have words : compare k l = .lt ↔ k.raw.toNat < l.raw.toNat := compare_eq_lt_iff_raw_lt
  have first := k.index_lt
  have second := l.index_lt
  rw [words, raw_eq, raw_eq, indexCount_eq] at *
  omega

/-- The word of a byte and an index has this byte on top, and below it this index. -/
theorem parts_ofNat {byte i : ℕ} (low : byte < 256) (within : i < indexCount) :
    topByte ⟨.ofNat (byte * indexCount + i)⟩ = byte ∧ Key.index ⟨.ofNat (byte * indexCount + i)⟩ = i := by
  rw [indexCount_eq] at within
  rw [topByte, Key.index, UInt64.toNat_ofNat', indexCount_eq]
  omega

theorem toNat_ofNat_of_lt {code : ℕ} (low : code < 256) : (Char.ofNat code).toNat = code := by
  rw [Char.toNat_ofNat, if_pos (.inl (by omega))]

theorem tag?_eq_some_iff : k.tag? = some tag ↔
    k.topByte = tag.toNat ∧ 0x21 ≤ tag.toNat ∧ tag.toNat ≤ 0x7e := by
  change (if 0x21 ≤ k.topByte ∧ k.topByte ≤ 0x7e then some (Char.ofNat k.topByte) else none) = some tag ↔ _
  constructor
  · intro tagged
    split at tagged
    next printing =>
      obtain rfl := Option.some.inj tagged
      rw [toNat_ofNat_of_lt (by omega)]
      exact ⟨rfl, printing⟩
    next => cases tagged
  · rintro ⟨byte, printing⟩
    rw [byte, if_pos printing, Char.ofNat_toNat]

/-! ## Symbols -/

theorem symbol_eq_ok_iff : symbol tag index = .ok k ↔
    tag.toNat < 128 ∧ k.topByte = tag.toNat ∧ k.index = index.toNat % indexCount := by
  unfold symbol
  split
  next ascii =>
    obtain ⟨byte, within⟩ := parts_ofNat (by omega : tag.toNat < 256) (Nat.mod_lt index.toNat (by decide : 0 < indexCount))
    rw [Except.ok.injEq, eq_comm, eq_iff, byte, within, and_iff_right ascii]
  next beyond => exact iff_of_false nofun fun made => beyond made.1

/-- Of its symbols a tag can be read back if it is a printing character. -/
theorem tag?_of_symbol (made : symbol tag index = .ok k) :
    k.tag? = if 0x21 ≤ tag.toNat ∧ tag.toNat ≤ 0x7e then some tag else none := by
  obtain ⟨_, byte, _⟩ := symbol_eq_ok_iff.mp made
  split
  next printing => exact tag?_eq_some_iff.mpr ⟨byte, printing⟩
  next control =>
    rw [Option.eq_none_iff_forall_ne_some]
    intro other tagged
    obtain ⟨same, printing⟩ := tag?_eq_some_iff.mp tagged
    exact control (by rwa [← byte, same])

/-- A key with a tag is the symbol of this tag and of its index. -/
theorem symbol_of_tag? (tagged : k.tag? = some tag) : symbol tag (.ofNat k.index) = .ok k := by
  obtain ⟨byte, printing⟩ := tag?_eq_some_iff.mp tagged
  refine symbol_eq_ok_iff.mpr ⟨by omega, byte, ?_⟩
  have within := k.index_lt
  rw [UInt64.toNat_ofNat', indexCount_eq] at *
  omega

/-- The symbols are the keys with a top byte in the lower half. -/
theorem exists_symbol_iff : (∃ tag index, symbol tag index = .ok k) ↔ k.topByte < 128 := by
  constructor
  · rintro ⟨tag, index, made⟩
    obtain ⟨ascii, byte, _⟩ := symbol_eq_ok_iff.mp made
    exact byte ▸ ascii
  · intro low
    have code := toNat_ofNat_of_lt (by omega : k.topByte < 256)
    refine ⟨Char.ofNat k.topByte, .ofNat k.index, symbol_eq_ok_iff.mpr ⟨code.symm ▸ low, code.symm, ?_⟩⟩
    have within := k.index_lt
    rw [UInt64.toNat_ofNat', indexCount_eq] at *
    omega

/-! ## In words -/

def indexMask : UInt64 := 0xffffffffffffff

/-- The low byte of a tag above the low bits of an index. -/
def packed (tag : Char) (index : UInt64) : UInt64 := (tag.val.toUInt64 &&& 0xff) <<< 56 ||| index &&& indexMask

def shiftedByte (k : Key) : UInt8 := (k.raw >>> 56).toUInt8

theorem toNat_masked (word : UInt64) : (word &&& indexMask).toNat = word.toNat % indexCount := by
  rw [UInt64.toNat_and, indexCount_eq, ← Nat.and_two_pow_sub_one_eq_mod]
  rfl

theorem toNat_shiftedByte (k : Key) : k.shiftedByte.toNat = k.topByte := by
  have bound := k.raw.toNat_lt
  rw [shiftedByte, UInt64.toNat_toUInt8, UInt64.toNat_shiftRight, Nat.shiftRight_eq_div_pow]
  change k.raw.toNat / 2 ^ 56 % 256 = k.raw.toNat / 2 ^ 56
  omega

theorem toNat_packed (ascii : tag.toNat < 128) :
    (packed tag index).toNat = tag.toNat * indexCount + index.toNat % indexCount := by
  have byte : (tag.val.toUInt64 &&& 0xff).toNat = tag.toNat := by
    rw [UInt64.toNat_and, UInt32.toNat_toUInt64, Char.toNat_val]
    change tag.toNat &&& 2 ^ 8 - 1 = tag.toNat
    rw [Nat.and_two_pow_sub_one_of_lt_two_pow (by omega)]
  have within : index.toNat % 2 ^ 56 < 2 ^ 56 := Nat.mod_lt _ (by decide)
  rw [packed, UInt64.toNat_or, UInt64.toNat_shiftLeft, byte, toNat_masked, indexCount_eq]
  change tag.toNat <<< 56 % 2 ^ 64 ||| index.toNat % 2 ^ 56 = _
  rw [Nat.mod_eq_of_lt (by rw [Nat.shiftLeft_eq]; omega), ← Nat.shiftLeft_add_eq_or_of_lt within, Nat.shiftLeft_eq]

theorem symbol_eq_packed (tag : Char) (index : UInt64) :
    symbol tag index = if tag.toNat < 128 then .ok ⟨packed tag index⟩ else .error (.nonAsciiTag tag) := by
  unfold symbol
  split
  next ascii => rw [← toNat_packed ascii, UInt64.ofNat_toNat]
  next => rfl

theorem tag?_eq_shifted (k : Key) : k.tag? =
    if 0x21 ≤ k.shiftedByte ∧ k.shiftedByte ≤ 0x7e then some (Char.ofUInt8 k.shiftedByte) else none := by
  have code : Char.ofNat k.topByte = Char.ofUInt8 k.shiftedByte := by
    rw [← toNat_shiftedByte, ← Char.toNat_inj, toNat_ofNat_of_lt k.shiftedByte.toNat_lt]
    rfl
  change (if 0x21 ≤ k.topByte ∧ k.topByte ≤ 0x7e then some (Char.ofNat k.topByte) else none) = _
  rw [code]
  simp only [UInt8.le_iff_toNat_le, toNat_shiftedByte]
  rfl

/-- A symbol is made for each ASCII tag and for no other. From it the index is read back modulo the number of indices, and
the tag if it is a printing character; two symbols are equal, and in order, as tag and index are, the tag first. A key with
a tag is the symbol of what is read from it, and the keys without any symbol are those with the highest bit. All
this by masks and shifts. -/
theorem symbol_packs :
    (∀ (tag : Char) (index : UInt64),
      symbol tag index = if tag.toNat < 128 then .ok ⟨packed tag index⟩ else .error (.nonAsciiTag tag)) ∧
    (∀ k : Key, k.index = (k.raw &&& indexMask).toNat ∧ k.tag? =
      if 0x21 ≤ k.shiftedByte ∧ k.shiftedByte ≤ 0x7e then some (Char.ofUInt8 k.shiftedByte) else none) ∧
    (∀ (tag : Char) (index : UInt64) (k : Key), symbol tag index = .ok k →
      k.index = index.toNat % 2 ^ 56 ∧
      k.tag? = if 0x21 ≤ tag.toNat ∧ tag.toNat ≤ 0x7e then some tag else none) ∧
    (∀ (tag tag' : Char) (index index' : UInt64) (k k' : Key), symbol tag index = .ok k → symbol tag' index' = .ok k' →
      (k = k' ↔ tag = tag' ∧ index.toNat % 2 ^ 56 = index'.toNat % 2 ^ 56) ∧
      (compare k k' = .lt ↔ tag < tag' ∨ tag = tag' ∧ index.toNat % 2 ^ 56 < index'.toNat % 2 ^ 56)) ∧
    (∀ (k : Key) (tag : Char), k.tag? = some tag → symbol tag (.ofNat k.index) = .ok k) ∧
    ∀ k : Key, (∃ tag index, symbol tag index = .ok k) ↔ k.raw.toNat / 2 ^ 56 < 0x80 := by
  refine ⟨symbol_eq_packed, fun k => ⟨(toNat_masked k.raw).symm, tag?_eq_shifted k⟩, fun tag index k made => ?_,
    fun tag tag' index index' k k' made made' => ?_, fun k tag => symbol_of_tag?, fun k => exists_symbol_iff⟩
  · obtain ⟨_, _, below⟩ := symbol_eq_ok_iff.mp made
    exact ⟨below, tag?_of_symbol made⟩
  · obtain ⟨_, byte, below⟩ := symbol_eq_ok_iff.mp made
    obtain ⟨_, byte', below'⟩ := symbol_eq_ok_iff.mp made'
    rw [eq_iff, compare_eq_lt_iff, byte, byte', below, below', Char.toNat_inj, indexCount_eq]
    exact ⟨Iff.rfl, Iff.rfl⟩

/-- An index beyond the last one, and a tag that is no printing character. -/
theorem symbol_packs_truncated :
    ∃ k, symbol 'x' 0x0500000000000007 = .ok k ∧ symbol 'x' 7 = .ok k ∧ k.index = 7 ∧ k.tag? = some 'x' ∧
      ∃ l, symbol '\x7f' 0 = .ok l ∧ l.tag? = none ∧ compare k l = .lt := by
  obtain ⟨_, _, read, two, _⟩ := symbol_packs
  have made : symbol 'x' 0x0500000000000007 = .ok ⟨0x7800000000000007⟩ := by decide
  have delete : symbol '\x7f' 0 = .ok ⟨0x7f00000000000000⟩ := by decide
  obtain ⟨index, tagged⟩ := read _ _ _ made
  obtain ⟨_, untagged⟩ := read _ _ _ delete
  exact ⟨_, made, by decide, index, tagged, _, delete, untagged, (two _ _ _ _ _ _ made delete).2.mpr (.inl (by decide))⟩

end InequalityLayer.Key
