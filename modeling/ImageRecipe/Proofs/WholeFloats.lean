import ImageRecipe.Tracing.Interpretation
import Mathlib

/-!
# Whole numbers as floats

A natural number of at most 53 bits is a float. Its significand is shifted up
until its leading bit is the fifty-third, nothing is rounded off, and the fields
that the float is read back from are those that were packed. So whole numbers
survive being read as floats, which is how counts and sizes are read.
-/
namespace ImageRecipe.Decimal

open Float.Model Float.Model.UnpackedFloat

variable {n k : Nat}

/-- A significand of 53 bits stands at the exponent that it is to have, so it is not shifted. -/
lemma shiftToTargetExponent_full {significand : Nat} {exponent : Int}
    (hlog : significand.log2 = 52) (hexp : -1074 ≤ exponent) :
    shiftToTargetExponent Format.binary64 significand exponent .exact =
      (⟨significand, false, false⟩, exponent) := by
  have htarget :
      Format.binary64.targetExponent (totalExponent significand exponent) = exponent := by
    simp only [Format.targetExponent, totalExponent, hlog, Format.mantissaBits, Format.minExponent]
    omega
  have hzero : (exponent - exponent).toNat = 0 := by omega
  rw [shiftToTargetExponent, htarget, shiftToExponent, hzero]
  simp [HShiftRight.hShiftRight, Nat.repeat, ExtendedMantissa.ofMantissaAndAccuracy]

lemma roundWithAccuracy_full {significand : Nat} {exponent : Int} (hpos : 0 < significand)
    (hlog : significand.log2 = 52) (hexp : -1074 ≤ exponent) :
    roundWithAccuracy Format.binary64 .positive significand exponent .exact =
      .finite .positive significand exponent hpos := by
  have hrounded : (⟨significand, false, false⟩ : ExtendedMantissa).roundedMantissa = significand :=
    rfl
  simp only [roundWithAccuracy, shiftToTargetExponent_full hlog hexp, hrounded,
    dif_neg (Nat.ne_of_gt hpos)]

lemma log2_mul_two_pow (hn : n ≠ 0) (k : Nat) : (n * 2 ^ k).log2 = n.log2 + k := by
  obtain ⟨hlow, hhigh⟩ := (Nat.log2_eq_iff hn).mp rfl
  have hunit : 0 < 2 ^ k := Nat.two_pow_pos k
  rw [Nat.log2_eq_iff (Nat.mul_ne_zero hn (Nat.ne_of_gt hunit)), Nat.pow_add,
    Nat.add_right_comm, Nat.pow_add]
  exact ⟨Nat.mul_le_mul_right _ hlow, Nat.mul_lt_mul_of_pos_right hhigh hunit⟩

/-- The significand of a number with `k + 1` bits. -/
lemma log2_scaled (hn : n ≠ 0) (hk : n.log2 = k) (hle : k ≤ 52) :
    (n * 2 ^ (52 - k)).log2 = 52 := by
  rw [log2_mul_two_pow hn, hk, Nat.add_sub_cancel' hle]

lemma ofNat_eq_finite (hn : n ≠ 0) (hk : n.log2 = k) (hle : k ≤ 52) :
    ∃ hpos, UnpackedFloat.ofNat Format.binary64 n =
      .finite .positive (n * 2 ^ (52 - k)) ((k : Int) - 52) hpos := by
  have hlog := log2_scaled hn hk hle
  have hpos : 0 < n * 2 ^ (52 - k) := Nat.mul_pos (Nat.pos_of_ne_zero hn) (Nat.two_pow_pos _)
  have htarget : Format.binary64.targetExponent (totalExponent n 0) = (k : Int) - 52 := by
    simp only [Format.targetExponent, totalExponent, hk, Format.mantissaBits, Format.minExponent]
    omega
  have hshift : (0 - ((k : Int) - 52)).toNat = 52 - k := by omega
  have hcompare : compare (n : Int) 0 = .gt := Int.compare_eq_gt.mpr (by omega)
  refine ⟨hpos, ?_⟩
  rw [UnpackedFloat.ofNat, UnpackedFloat.ofInt, UnpackedFloat.normalize, hcompare]
  simp only [UnpackedFloat.round, Int.toNat_natCast, htarget, decreaseExponent, hshift,
    Nat.shiftLeft_eq]
  have hexp : (0 : Int) - ((52 - k : Nat) : Int) = (k : Int) - 52 := by omega
  rw [hexp]
  exact roundWithAccuracy_full hpos hlog (by omega)

section Packed

variable {significand field : Nat} {exponent : Int} (hpos : 0 < significand)
  (hlog : significand.log2 = 52) (hfield : field < 2047) (hexp : exponent = (field : Int) - 1075)
include hlog hfield hexp

/-- The leading bit of a significand that has all its bits is not stored. -/
lemma pack_eq_packComponents :
    UnpackedFloat.pack Format.binary64 (.finite .positive significand exponent hpos) =
      packComponents Format.binary64 .positive (BitVec.ofNat 11 field)
        (BitVec.ofNat 52 significand) := by
  have hbiased : (exponent + (Format.binary64.exponentBias : Int) + (52 : Nat)).toNat = field := by
    have hbias : Format.binary64.exponentBias = 1023 := by decide
    omega
  have hsmall : ¬ 2 ^ 11 ≤ field + 1 := by omega
  have hbits : significand.log2 + 1 = Format.binary64.mantissaBits := by rw [hlog]; rfl
  simp only [UnpackedFloat.pack, hbiased, if_neg hsmall, if_pos hbits]

/-- The bits of a float whose leading bit is the fifty-third: the field of the exponent, and the
significand without that bit. -/
lemma toNat_bits_pack :
    (Float.Model.pack (.finite .positive significand exponent hpos)).toBits.toNat =
      field * 2 ^ 52 + (significand - 2 ^ 52) := by
  have hbounds := (Nat.log2_eq_iff (Nat.ne_of_gt hpos)).mp hlog
  have hmod : significand % 2 ^ 52 = significand - 2 ^ 52 := by omega
  have hfieldmod : field % 2 ^ 11 = field := Nat.mod_eq_of_lt (by omega)
  have hlow : significand - 2 ^ 52 < 2 ^ 52 := by omega
  change (UnpackedFloat.pack Format.binary64 _).toNat = _
  rw [pack_eq_packComponents hpos hlog hfield hexp, packComponents, BitVec.toNat_append,
    BitVec.toNat_append, BitVec.toNat_ofNat, BitVec.toNat_ofNat, hmod, hfieldmod]
  change (0 <<< 11 ||| field) <<< 52 ||| (significand - 2 ^ 52) = _
  rw [Nat.zero_shiftLeft, Nat.zero_or, ← Nat.shiftLeft_add_eq_or_of_lt hlow, Nat.shiftLeft_eq]

end Packed

section Fields

variable {bits : UInt64} {field fraction : Nat}
  (hbits : bits.toNat = field * 2 ^ 52 + fraction) (hfraction : fraction < 2 ^ 52)
  (hfield : field < 2 ^ 11)
include hbits hfraction

lemma fractionField_eq : fractionField bits = fraction := by
  have hmask : (0xFFFFFFFFFFFFF : UInt64).toNat = 2 ^ 52 - 1 := rfl
  rw [fractionField, UInt64.toNat_and, hbits, hmask, Nat.and_two_pow_sub_one_eq_mod]
  omega

include hfield

lemma exponentField_eq : exponentField bits = field := by
  have hmask : (0x7FF : UInt64).toNat = 2 ^ 11 - 1 := rfl
  have hshift : (52 : UInt64).toNat % 64 = 52 := rfl
  rw [exponentField, UInt64.toNat_and, UInt64.toNat_shiftRight, hshift, hbits, hmask,
    Nat.and_two_pow_sub_one_eq_mod, Nat.shiftRight_eq_div_pow]
  omega

lemma isNegative_eq_false {x : Float} (hx : x.toBits = bits) : isNegative x = false := by
  have hshift : (63 : UInt64).toNat % 64 = 63 := rfl
  have hsign : (bits >>> 63).toNat = 0 := by
    rw [UInt64.toNat_shiftRight, hshift, hbits, Nat.shiftRight_eq_div_pow]
    omega
  rw [isNegative, hx, UInt64.toNat_inj.mp (hsign.trans (by rfl : 0 = (0 : UInt64).toNat))]
  rfl

/-- What a normal float is read as. -/
lemma ofFloat?_eq {x : Float} (hx : x.toBits = bits) (hnormal : 0 < field)
    (hfinite : field < 2047) : Binary.ofFloat? x = some ⟨2 ^ 52 + fraction, (field : Int) - 1075,
      fraction == 0 && decide (field > 1)⟩ := by
  have hexponent := exponentField_eq hbits hfraction hfield
  have hfinite' : isFinite x = true := by
    rw [isFinite, hx, hexponent]
    exact bne_iff_ne.mpr (Nat.ne_of_lt hfinite)
  rw [Binary.ofFloat?, if_pos hfinite', hx, hexponent, fractionField_eq hbits hfraction,
    Binary.ofFields, beq_false_of_ne (Nat.ne_of_gt hnormal), if_neg Bool.false_ne_true, Nat.pow_eq]

end Fields

/-- A number scaled up by `52 - k` bits and down again. -/
lemma natural?_scaled (hle : k ≤ 52) (narrowBelow : Bool) :
    (⟨n * 2 ^ (52 - k), (k : Int) - 52, narrowBelow⟩ : Binary).natural? = some n := by
  by_cases hfull : k = 52
  · subst hfull
    simp [Binary.natural?]
  · have hnegative : ¬ (0 : Int) ≤ (k : Int) - 52 := by omega
    have hunit : (-((k : Int) - 52)).toNat = 52 - k := by omega
    have hpos : 0 < 2 ^ (52 - k) := Nat.two_pow_pos _
    rw [Binary.natural?, if_neg hnegative, hunit]
    simp [Nat.mul_div_cancel _ hpos]

/-- A whole number of at most 53 bits is read back from the float that it is. -/
theorem natural?_toFloat (hn : n < 2 ^ 53) :
    natural? (UInt64.ofNat n).toFloat = some n := by
  have hword : (UInt64.ofNat n).toNat = n := by
    rw [UInt64.toNat_ofNat']
    exact Nat.mod_eq_of_lt (by omega)
  by_cases hzero : n = 0
  · subst hzero
    decide +kernel
  obtain ⟨k, hk⟩ : ∃ k, n.log2 = k := ⟨_, rfl⟩
  have hle : k ≤ 52 := by
    have hlt : n.log2 < 53 := (Nat.log2_lt hzero).mpr hn
    omega
  obtain ⟨hpos, hfinite⟩ := ofNat_eq_finite hzero hk hle
  have hlog := log2_scaled hzero hk hle
  have hbits : (UInt64.ofNat n).toFloat.toBits.toNat =
      (k + 1023) * 2 ^ 52 + (n * 2 ^ (52 - k) - 2 ^ 52) := by
    change (Float.Model.pack (UnpackedFloat.ofNat Format.binary64
      (UInt64.ofNat n).toNat)).toBits.toNat = _
    rw [hword, hfinite]
    exact toNat_bits_pack hpos hlog (by omega) (by omega)
  have hbounds := (Nat.log2_eq_iff (Nat.ne_of_gt hpos)).mp hlog
  have hfraction : n * 2 ^ (52 - k) - 2 ^ 52 < 2 ^ 52 := by omega
  have hexponent : ((k + 1023 : Nat) : Int) - 1075 = (k : Int) - 52 := by omega
  have hread := ofFloat?_eq hbits hfraction (by omega) rfl (by omega) (by omega)
  rw [Nat.add_sub_cancel' hbounds.1, hexponent] at hread
  rw [natural?, hread, isNegative_eq_false hbits hfraction (by omega) rfl]
  exact natural?_scaled hle _

end ImageRecipe.Decimal

namespace ImageRecipe

lemma Number.float_ofNat (n : Nat) : (Number.int n).float = (UInt64.ofNat n).toFloat := by
  rw [Number.float, if_neg (by omega), Int.natAbs_natCast]

/-- A count or size of 32 bits is read as it was written. -/
theorem Tracing.naturalValue?_toNat (n : UInt32) :
    Tracing.naturalValue? (.num (.int n.toNat)) = some n := by
  have hlt : n.toNat < UInt32.size := n.toNat_lt
  have hread : Decimal.natural? (Number.int n.toNat).float = some n.toNat := by
    rw [Number.float_ofNat]
    exact Decimal.natural?_toFloat (Nat.lt_trans hlt (by decide))
  simp only [Tracing.naturalValue?, Json.looseFloat?, Option.bind_eq_bind, Option.bind_some, hread,
    if_pos hlt, UInt32.ofNat_toNat]

/-- A seed of 64 bits is read as it was written. -/
theorem Seed.ofJson?_toNat (n : UInt64) : Seed.ofJson? (.num (.int n.toNat)) = some n := by
  have hlt : n.toNat < UInt64.size := n.toNat_lt
  have hrange :
      (decide (0 ≤ (n.toNat : Int)) && decide ((n.toNat : Int) < UInt64.size)) = true := by
    rw [Bool.and_eq_true, decide_eq_true_iff, decide_eq_true_iff]
    exact ⟨Int.natCast_nonneg _, Int.ofNat_lt.mpr hlt⟩
  rw [Seed.ofJson?, Seed.ofNumber?, Number.natural?, if_pos hrange, Int.toNat_natCast,
    UInt64.ofNat_toNat]

end ImageRecipe
