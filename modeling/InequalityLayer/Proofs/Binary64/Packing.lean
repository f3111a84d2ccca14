import Mathlib

/-!
Words of binary64 numbers. A word is taken apart into sign, significand and exponent
(`unpack_packComponents`); what comes out is `Canonical` (`canonical_unpack`), and going in it comes out
again (`unpack_pack_of_le`) unless its exponent is above the largest, when infinity does (`unpack_pack_of_lt`).
So the magnitude of a number is the number without its sign (`unpack_abs`), and negation turns the sign round
(`unpack_neg`).
-/
namespace InequalityLayer.Binary64
set_option autoImplicit false
open Float.Model UnpackedFloat

/-- Significand and exponent of a word: 53 bits above the smallest exponent, and at most as many there. -/
structure Canonical (significand : ℕ) (exponent : ℤ) : Prop where
  lt : significand < 2 ^ 53
  least : -1074 ≤ exponent
  full : 2 ^ 52 ≤ significand ∨ exponent = -1074

/-! ## Words -/

theorem toNat_cons (fraction : BitVec 52) : (1#1 ++ fraction).toNat = 2 ^ 52 + fraction.toNat := by
  rw [BitVec.toNat_append, ← Nat.shiftLeft_add_eq_or_of_lt fraction.isLt]
  rfl

theorem ofNat_ne {w n : ℕ} {word : BitVec w} (h : n % 2 ^ w ≠ word.toNat) : BitVec.ofNat w n ≠ word :=
  fun same => h (by rw [← same, BitVec.toNat_ofNat])

theorem unpack_packComponents (s : Sign) (biased : BitVec 11) (fraction : BitVec 52) :
    UnpackedFloat.unpack Format.binary64 (packComponents Format.binary64 s biased fraction) =
      if biased = -1#11 then if fraction = 0#52 then .infinity s else .notANumber
      else if biased = 0#11 then
        if h : fraction = 0#52 then .zero s
        else .finite s fraction.toNat (-1074) (by simpa [Nat.pos_iff_ne_zero, BitVec.toNat_eq] using h)
      else .finite s (2 ^ 52 + fraction.toNat) (biased.toNat - 1075) (by omega) := by
  unfold UnpackedFloat.unpack
  simp only [unpackMantissa_packComponents, unpackExponent_packComponents, unpackSign_packComponents,
    Sign.ofBitVec_toBitVec]
  split
  · rfl
  · split
    · next zero =>
      split
      · rfl
      · simp [zero, Format.exponentBias]
    · simp [toNat_cons, Format.exponentBias]

theorem unpack_eq_unpack_packComponents (a : Float.Model) :
    ∃ (s : Sign) (biased : BitVec 11) (fraction : BitVec 52),
      a.unpack = UnpackedFloat.unpack Format.binary64 (packComponents Format.binary64 s biased fraction) :=
  ⟨_, _, _, congrArg (UnpackedFloat.unpack Format.binary64)
    (@packComponents_unpackSign_unpackExponent_unpackMantissa Format.binary64 a.toBits.toBitVec).symm⟩

theorem canonical_unpack {a : Float.Model} {s : Sign} {m : ℕ} {e : ℤ} {pos : 0 < m}
    (h : a.unpack = .finite s m e pos) : Canonical m e ∧ e ≤ 971 := by
  obtain ⟨t, biased, fraction, word⟩ := unpack_eq_unpack_packComponents a
  rw [h, unpack_packComponents] at word
  have fractionLt := fraction.isLt
  have biasedLt := biased.isLt
  split at word
  · split at word <;> cases word
  · next notLast =>
    split at word
    · split at word
      · cases word
      · cases word
        exact ⟨⟨by omega, le_rfl, .inr rfl⟩, by omega⟩
    · next notFirst =>
      cases word
      have last : biased.toNat ≠ 2047 := fun same => notLast (BitVec.eq_of_toNat_eq same)
      have first : biased.toNat ≠ 0 := fun same => notFirst (BitVec.eq_of_toNat_eq same)
      exact ⟨⟨by omega, by omega, .inl (by omega)⟩, by omega⟩

/-! ## Packing -/

theorem pack_finite (s : Sign) (m : ℕ) (e : ℤ) (pos : 0 < m) :
    UnpackedFloat.pack Format.binary64 (.finite s m e pos) =
      if 2047 ≤ (e + 1075).toNat then packComponents Format.binary64 s (-1#11) 0#52
      else if m.log2 = 52 then
        packComponents Format.binary64 s (BitVec.ofNat 11 (e + 1075).toNat) (BitVec.ofNat 52 m)
      else packComponents Format.binary64 s 0#11 (BitVec.ofNat 52 m) := by
  have biased : e + (Format.binary64.exponentBias : ℤ) + (Format.binary64.mantissaBitsWithoutImplicit : ℤ) =
      e + 1075 := by
    change e + 1023 + 52 = e + 1075
    omega
  unfold UnpackedFloat.pack
  simp only [biased, Format.mantissaBits, Nat.reducePow]
  grind [packedInfinity]

theorem unpack_pack_of_lt {s : Sign} {m : ℕ} {e : ℤ} {pos : 0 < m} (large : 971 < e) :
    (Float.Model.pack (.finite s m e pos)).unpack = .infinity s := by
  change UnpackedFloat.unpack Format.binary64 (UnpackedFloat.pack Format.binary64 _) = _
  rw [pack_finite, if_pos (by omega), unpack_packComponents, if_pos rfl, if_pos rfl]

theorem unpack_pack_of_le {s : Sign} {m : ℕ} {e : ℤ} {pos : 0 < m} (h : Canonical m e) (small : e ≤ 971) :
    (Float.Model.pack (.finite s m e pos)).unpack = .finite s m e pos := by
  change UnpackedFloat.unpack Format.binary64 (UnpackedFloat.pack Format.binary64 _) = _
  have lt := h.lt
  have least := h.least
  have fraction : (BitVec.ofNat 52 m).toNat = m % 2 ^ 52 := BitVec.toNat_ofNat m 52
  rw [pack_finite, if_neg (by omega)]
  by_cases full : 2 ^ 52 ≤ m
  · have biased : (BitVec.ofNat 11 (e + 1075).toNat).toNat = (e + 1075).toNat := by
      rw [BitVec.toNat_ofNat]
      omega
    have notLast : BitVec.ofNat 11 (e + 1075).toNat ≠ -1#11 := ofNat_ne (by simp; omega)
    have notFirst : BitVec.ofNat 11 (e + 1075).toNat ≠ 0#11 := ofNat_ne (by simp; omega)
    rw [if_pos ((Nat.log2_eq_iff (by omega)).mpr ⟨full, lt⟩), unpack_packComponents, if_neg notLast, if_neg notFirst]
    congr 1
    · omega
    · omega
  · obtain rfl : e = -1074 := h.full.resolve_left full
    have nonzero : BitVec.ofNat 52 m ≠ 0#52 := ofNat_ne (by simp; omega)
    have short : m.log2 ≠ 52 := fun same => full ((Nat.log2_eq_iff (by omega)).mp same).1
    rw [if_neg short, unpack_packComponents, if_neg (by decide), if_pos rfl, dif_neg nonzero]
    congr 1
    omega

theorem unpack_pack_infinity (s : Sign) : (Float.Model.pack (.infinity s)).unpack = .infinity s := by
  cases s <;> rfl

theorem unpack_pack_zero (s : Sign) : (Float.Model.pack (.zero s)).unpack = .zero s := by
  cases s <;> rfl

theorem unpack_pack_notANumber : (Float.Model.pack .notANumber).unpack = .notANumber := rfl

/-! ## Magnitudes and signs -/

theorem unpack_abs (a : Float) : a.abs.toModel.unpack = a.toModel.unpack.abs := by
  change (Float.Model.pack a.toModel.unpack.abs).unpack = _
  cases h : a.toModel.unpack with
  | notANumber => rfl
  | infinity s => exact unpack_pack_infinity .positive
  | zero s => exact unpack_pack_zero .positive
  | finite s m e pos =>
    obtain ⟨canonical, small⟩ := canonical_unpack h
    exact unpack_pack_of_le canonical small

theorem unpack_neg (a : Float) : (-a).toModel.unpack = a.toModel.unpack.neg := by
  change (Float.Model.pack a.toModel.unpack.neg).unpack = _
  cases h : a.toModel.unpack with
  | notANumber => rfl
  | infinity s => exact unpack_pack_infinity (-s)
  | zero s => exact unpack_pack_zero (-s)
  | finite s m e pos =>
    obtain ⟨canonical, small⟩ := canonical_unpack h
    exact unpack_pack_of_le canonical small

theorem isFinite_abs (a : Float) : a.abs.isFinite = a.isFinite := by
  change a.abs.toModel.unpack.isFinite = a.toModel.unpack.isFinite
  rw [unpack_abs]
  cases a.toModel.unpack <;> rfl

end InequalityLayer.Binary64
