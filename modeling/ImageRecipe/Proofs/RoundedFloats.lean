import ImageRecipe.Proofs.WholeFloats

/-!
# Rounded floats

A significand with more than 53 bits loses its last ones: it goes to the nearest
multiple of the unit that is left, and of two equally near ones to the even one.
So the product of two floats is known exactly as long as that unit is a whole
number and the product is finite. The floats here are positive and normal, which
is what the digits of a large number and the powers of ten are.
-/
namespace ImageRecipe.Decimal

open Float.Model Float.Model.UnpackedFloat

variable {n k : Nat}

/-- How often `unit` goes into `n`, to the nearest; of two equally near numbers the even one. -/
def nearestEven (n unit : Nat) : Nat :=
  if 2 * (n % unit) < unit then n / unit
  else if unit < 2 * (n % unit) then n / unit + 1
  else n / unit + n / unit % 2

lemma div_le_nearestEven (n unit : Nat) : n / unit ≤ nearestEven n unit := by
  unfold nearestEven
  split
  · exact Nat.le_refl _
  · split <;> omega

lemma nearestEven_le_succ (n unit : Nat) : nearestEven n unit ≤ n / unit + 1 := by
  unfold nearestEven
  split
  · omega
  · split <;> omega

section Nearest

variable {unit q : Nat} (hunit : 0 < unit)
include hunit

/-- A multiple that is less than half a unit above `n` is not above the nearest one. -/
lemma le_nearestEven (h : 2 * (q * unit) < 2 * n + unit) : q ≤ nearestEven n unit := by
  have hn : unit * (n / unit) + n % unit = n := Nat.div_add_mod n unit
  have hrest : n % unit < unit := Nat.mod_lt n hunit
  have hstep : ∀ {d}, n / unit + d ≤ q → unit * (n / unit) + d * unit ≤ q * unit := fun h => by
    have hmul := Nat.mul_le_mul_right unit h
    rwa [Nat.add_mul, Nat.mul_comm _ unit] at hmul
  by_contra hlt
  unfold nearestEven at hlt
  split_ifs at hlt
  · have hone := @hstep 1 (by omega)
    omega
  · have htwo := @hstep 2 (by omega)
    omega
  · have hone := @hstep 1 (by omega)
    omega

/-- An even multiple that is at most half a unit below `n` is not below the nearest one. -/
lemma nearestEven_le (heven : q % 2 = 0) (h : 2 * n ≤ 2 * (q * unit) + unit) :
    nearestEven n unit ≤ q := by
  have hn : unit * (n / unit) + n % unit = n := Nat.div_add_mod n unit
  have hstep : ∀ {d}, q + d ≤ n / unit → q * unit + d * unit ≤ unit * (n / unit) := fun h => by
    have hmul := Nat.mul_le_mul_right unit h
    rwa [Nat.add_mul, Nat.mul_comm (n / unit) unit] at hmul
  by_contra hlt
  unfold nearestEven at hlt
  split_ifs at hlt
  · have hone := @hstep 1 (by omega)
    omega
  · have hzero := @hstep 0 (by omega)
    omega
  · have hone := @hstep 1 (by omega)
    omega

end Nearest

/-- What is left of a number when its last `k` bits are shifted out: the rest of it, whether the
bits that are gone are half a unit or more, and whether they are neither none nor half a unit. -/
lemma shiftRight_exact (n k : Nat) : (⟨n, false, false⟩ : ExtendedMantissa) >>> k =
    ⟨n / 2 ^ k, decide (2 ^ k ≤ 2 * (n % 2 ^ k)), decide (2 * (n % 2 ^ k) % 2 ^ k ≠ 0)⟩ := by
  induction k with
  | zero => simp [HShiftRight.hShiftRight, Nat.repeat, Nat.mod_one]
  | succ k ih =>
    have hlow : n % 2 ^ k < 2 ^ k := Nat.mod_lt n (Nat.two_pow_pos k)
    have hmod : n % 2 ^ (k + 1) = n % 2 ^ k + 2 ^ k * (n / 2 ^ k % 2) := Nat.mod_pow_succ
    have hround : (n / 2 ^ k % 2 != 0) = decide (2 ^ (k + 1) ≤ 2 * (n % 2 ^ (k + 1))) := by
      rw [Bool.eq_iff_iff, bne_iff_ne, decide_eq_true_iff, hmod, Nat.pow_succ]
      obtain hbit | hbit := Nat.mod_two_eq_zero_or_one (n / 2 ^ k) <;> rw [hbit] <;> omega
    -- the bits below the new round bit are none exactly if the old bits were none
    have hsticky : (decide (2 ^ k ≤ 2 * (n % 2 ^ k)) || decide (2 * (n % 2 ^ k) % 2 ^ k ≠ 0)) =
        decide (2 * (n % 2 ^ (k + 1)) % 2 ^ (k + 1) ≠ 0) := by
      have hsmall : 2 * (n % 2 ^ k) < 2 ^ k → 2 * (n % 2 ^ k) % 2 ^ k = 2 * (n % 2 ^ k) :=
        Nat.mod_eq_of_lt
      have hnone : n % 2 ^ k = 0 → 2 * (n % 2 ^ k) % 2 ^ k = 0 := fun h => by
        rw [h]
        exact Nat.zero_mod _
      rw [Bool.eq_iff_iff, Bool.or_eq_true, decide_eq_true_iff, decide_eq_true_iff,
        decide_eq_true_iff, hmod, Nat.pow_succ', Nat.mul_mod_mul_left, Nat.add_mul_mod_self_left,
        Nat.mod_eq_of_lt hlow]
      omega
    change ((⟨n, false, false⟩ : ExtendedMantissa) >>> k).shiftRightOne = _
    rw [ih, ExtendedMantissa.shiftRightOne, hround, hsticky, Nat.div_div_eq_div_mul, Nat.pow_succ]

lemma roundedMantissa_shiftRight (n k : Nat) :
    ((⟨n, false, false⟩ : ExtendedMantissa) >>> k).roundedMantissa = nearestEven n (2 ^ k) := by
  have hmore : 2 ^ k < 2 * (n % 2 ^ k) → 2 * (n % 2 ^ k) % 2 ^ k ≠ 0 := by
    have hlow : n % 2 ^ k < 2 ^ k := Nat.mod_lt n (Nat.two_pow_pos k)
    intro habove
    rw [Nat.mod_eq_sub_mod (Nat.le_of_lt habove), Nat.mod_eq_of_lt (by omega)]
    omega
  rw [shiftRight_exact, nearestEven, ExtendedMantissa.roundedMantissa]
  obtain hbelow | hhalf | habove := Nat.lt_trichotomy (2 * (n % 2 ^ k)) (2 ^ k)
  · rw [if_pos hbelow, decide_eq_false (Nat.not_le.mpr hbelow)]
    cases decide (2 * (n % 2 ^ k) % 2 ^ k ≠ 0) <;> rfl
  · rw [if_neg (by omega), if_neg (by omega), hhalf, Nat.mod_self, decide_eq_true (Nat.le_refl _),
      decide_eq_false (by simp)]
    rfl
  · rw [if_neg (by omega), if_pos habove, decide_eq_true (Nat.le_of_lt habove),
      decide_eq_true (hmore habove)]
    rfl

section Rounding

variable {significand excess : Nat} {exponent : Int}

lemma nearestEven_bounds (hlog : significand.log2 = 52 + excess) :
    2 ^ 52 ≤ nearestEven significand (2 ^ excess) ∧
      nearestEven significand (2 ^ excess) ≤ 2 ^ 53 := by
  have hne : significand ≠ 0 := by
    rintro rfl
    rw [Nat.log2_zero] at hlog
    omega
  have hbounds := (Nat.log2_eq_iff hne).mp hlog
  have hlow : 2 ^ 52 ≤ significand / 2 ^ excess := by
    rw [Nat.le_div_iff_mul_le (Nat.two_pow_pos _), ← Nat.pow_add]
    exact hbounds.1
  have hhigh : significand / 2 ^ excess < 2 ^ 53 := by
    rw [Nat.div_lt_iff_lt_mul (Nat.two_pow_pos _), ← Nat.pow_add]
    exact Nat.lt_of_lt_of_eq hbounds.2 (by congr 1; omega)
  exact ⟨Nat.le_trans hlow (div_le_nearestEven _ _),
    Nat.le_trans (nearestEven_le_succ _ _) hhigh⟩

lemma shiftToTargetExponent_excess (hlog : significand.log2 = 52 + excess)
    (hexp : -1074 ≤ exponent + excess) :
    shiftToTargetExponent Format.binary64 significand exponent .exact =
      ((⟨significand, false, false⟩ : ExtendedMantissa) >>> excess, exponent + excess) := by
  have htarget : Format.binary64.targetExponent (totalExponent significand exponent) =
      exponent + excess := by
    simp only [Format.targetExponent, totalExponent, hlog, Format.mantissaBits, Format.minExponent]
    omega
  have hshift : (exponent + excess - exponent).toNat = excess := by omega
  rw [shiftToTargetExponent, htarget, shiftToExponent, hshift]
  rfl

/-- Rounding leaves the nearest multiple of the unit. A significand that is rounded up to
`2 ^ 53` is shifted once more. -/
lemma exists_roundWithAccuracy_eq (hlog : significand.log2 = 52 + excess)
    (hexp : -1074 ≤ exponent + excess) :
    ∃ (rounded carry : Nat) (hpos : 0 < rounded),
      roundWithAccuracy Format.binary64 .positive significand exponent .exact =
        .finite .positive rounded (exponent + excess + carry) hpos ∧
      rounded.log2 = 52 ∧ carry ≤ 1 ∧
      rounded * 2 ^ carry = nearestEven significand (2 ^ excess) := by
  obtain ⟨hlow, hhigh⟩ := nearestEven_bounds hlog
  rw [roundWithAccuracy]
  simp only [shiftToTargetExponent_excess hlog hexp, roundedMantissa_shiftRight]
  obtain hsmall | hfull := Nat.lt_or_eq_of_le hhigh
  · have hpos : 0 < nearestEven significand (2 ^ excess) := by omega
    have hlog' := (Nat.log2_eq_iff (Nat.ne_of_gt hpos)).mpr ⟨hlow, hsmall⟩
    refine ⟨nearestEven significand (2 ^ excess), 0, hpos, ?_, hlog', Nat.zero_le _,
      Nat.mul_one _⟩
    simp only [shiftToTargetExponent_full hlog' hexp, dif_neg (Nat.ne_of_gt hpos),
      Nat.cast_zero, add_zero]
  · have hlog' : (2 ^ 53 : Nat).log2 = 52 + 1 := Nat.log2_two_pow
    have hexp' : -1074 ≤ exponent + excess + (1 : Nat) := by omega
    refine ⟨2 ^ 52, 1, Nat.two_pow_pos 52, ?_, Nat.log2_two_pow, Nat.le_refl _, hfull.symm⟩
    simp only [hfull, shiftToTargetExponent_excess hlog' hexp', shiftRight_exact]
    rfl

end Rounding

/-- A positive float whose significand has all 53 bits. -/
structure Normal (x : Float) (significand : Nat) (exponent : Int) : Prop where
  log2_eq : significand.log2 = 52
  low : -1074 ≤ exponent
  high : exponent ≤ 971
  unpack_eq : ∃ hpos, x.toModel.unpack = .finite .positive significand exponent hpos

section Normal

variable {x : Float} {significand : Nat} {exponent : Int}

/-- A float is unpacked to the significand and the exponent that were packed. -/
lemma normal_pack {hpos : 0 < significand} (hlog : significand.log2 = 52)
    (hlow : -1074 ≤ exponent) (hhigh : exponent ≤ 971) :
    Normal (Float.ofModel (Float.Model.pack (.finite .positive significand exponent hpos)))
      significand exponent := by
  have hbounds := (Nat.log2_eq_iff (Nat.ne_of_gt hpos)).mp hlog
  have hfield : (exponent + 1075).toNat < 2047 := by omega
  have hones : BitVec.ofNat 11 (exponent + 1075).toNat ≠ -1#11 := by
    rw [Ne, ← BitVec.toNat_inj, BitVec.toNat_ofNat, Nat.mod_eq_of_lt (by omega)]
    exact Nat.ne_of_lt hfield
  have hzero : BitVec.ofNat 11 (exponent + 1075).toNat ≠ 0#11 := by
    rw [Ne, ← BitVec.toNat_inj, BitVec.toNat_ofNat, Nat.mod_eq_of_lt (by omega)]
    exact Nat.ne_of_gt (by omega : 0 < _)
  have hsignificand : (1#1 ++ BitVec.ofNat 52 significand).toNat = significand := by
    rw [BitVec.toNat_append, BitVec.toNat_ofNat, BitVec.toNat_ofNat,
      ← Nat.shiftLeft_add_eq_or_of_lt (Nat.mod_lt _ (Nat.two_pow_pos 52)), Nat.shiftLeft_eq]
    omega
  have hexponent : ((BitVec.ofNat 11 (exponent + 1075).toNat).toNat : Int) -
      ((Format.binary64.exponentBias : Int) + (52 : Nat)) = exponent := by
    have hbias : Format.binary64.exponentBias = 1023 := by decide
    rw [BitVec.toNat_ofNat, Nat.mod_eq_of_lt (by omega)]
    omega
  refine ⟨hlog, hlow, hhigh, hpos, ?_⟩
  change UnpackedFloat.unpack Format.binary64 (UnpackedFloat.pack Format.binary64 _) = _
  rw [pack_eq_packComponents hpos hlog hfield (by omega), UnpackedFloat.unpack]
  simp only [unpackMantissa_packComponents, unpackExponent_packComponents,
    unpackSign_packComponents, Sign.ofBitVec_toBitVec, if_neg hones, if_neg hzero,
    UnpackedFloat.finite.injEq, true_and]
  exact ⟨hsignificand, hexponent⟩

/-- A positive float is normal if the field of its exponent is neither empty nor full. -/
lemma normal_of_toNat_toBits (hlow : 2 ^ 52 ≤ x.toBits.toNat)
    (hhigh : x.toBits.toNat < 2047 * 2 ^ 52) :
    Normal x (2 ^ 52 + x.toBits.toNat % 2 ^ 52) ((x.toBits.toNat / 2 ^ 52 : Nat) - 1075) := by
  generalize hbits : x.toBits.toNat = bits at *
  have hfield : bits / 2 ^ 52 < 2047 := by omega
  have hpos : 0 < 2 ^ 52 + bits % 2 ^ 52 := by omega
  have hlog : (2 ^ 52 + bits % 2 ^ 52).log2 = 52 := by
    rw [Nat.log2_eq_iff (Nat.ne_of_gt hpos)]
    omega
  have hpacked : x = Float.ofModel (Float.Model.pack (.finite .positive
      (2 ^ 52 + bits % 2 ^ 52) ((bits / 2 ^ 52 : Nat) - 1075) hpos)) := by
    rw [← Float.toBits_inj, ← UInt64.toNat_inj]
    refine Eq.trans ?_ (toNat_bits_pack hpos hlog hfield rfl).symm
    omega
  rw [hpacked]
  exact normal_pack hlog (by omega) (by omega)

/-- A float whose exponent is too large is infinite. -/
lemma isFinite_pack_of_lt {hpos : 0 < significand} (hhigh : 971 < exponent) :
    isFinite (Float.ofModel (Float.Model.pack (.finite .positive significand exponent hpos))) =
      false := by
  have hlarge :
      2 ^ 11 ≤ (exponent + (Format.binary64.exponentBias : Int) + (52 : Nat)).toNat + 1 := by
    have hbias : Format.binary64.exponentBias = 1023 := by decide
    omega
  have hpack : UnpackedFloat.pack Format.binary64 (.finite .positive significand exponent hpos) =
      UnpackedFloat.pack Format.binary64 (.infinity .positive) := by
    simp only [UnpackedFloat.pack, if_pos hlarge]
  have hinfinite : isFinite (Float.ofModel (Float.Model.pack (.infinity .positive))) = false := by
    decide +kernel
  simp only [Float.Model.pack, hpack] at hinfinite ⊢
  exact hinfinite

section Reading

variable (h : Normal x significand exponent)
include h

lemma Normal.bounds : 2 ^ 52 ≤ significand ∧ significand < 2 ^ 53 := by
  have hne : significand ≠ 0 := by
    rintro rfl
    exact absurd h.log2_eq (by decide)
  exact (Nat.log2_eq_iff hne).mp h.log2_eq

lemma Normal.toNat_toBits :
    x.toBits.toNat = (exponent + 1075).toNat * 2 ^ 52 + (significand - 2 ^ 52) := by
  obtain ⟨hlog, hlow, hhigh, hpos, hunpack⟩ := h
  have hbits : x.toBits =
      (Float.Model.pack (.finite .positive significand exponent hpos)).toBits := by
    rw [← hunpack]
    exact congrArg UInt64.ofBitVec (pack_unpack_of_valid x.toModel.valid).symm
  rw [hbits]
  exact toNat_bits_pack hpos hlog (by omega) (by omega)

lemma Normal.isFinite : Decimal.isFinite x = true := by
  have hlow := h.low
  have hhigh := h.high
  have hbounds := h.bounds
  have hfraction : significand - 2 ^ 52 < 2 ^ 52 := by omega
  have hfield := exponentField_eq h.toNat_toBits hfraction (by omega)
  rw [Decimal.isFinite, hfield]
  exact bne_iff_ne.mpr (by omega)

/-- A normal float without bits behind the point is a whole number. -/
lemma Normal.natural? (hwhole : 0 ≤ exponent) :
    Decimal.natural? x = some (significand * 2 ^ exponent.toNat) := by
  have hlow := h.low
  have hhigh := h.high
  have hbounds := h.bounds
  have hfraction : significand - 2 ^ 52 < 2 ^ 52 := by omega
  have hread := ofFloat?_eq h.toNat_toBits hfraction (by omega) rfl (by omega) (by omega)
  have hexponent : (((exponent + 1075).toNat : Nat) : Int) - 1075 = exponent := by omega
  rw [Nat.add_sub_cancel' hbounds.1, hexponent] at hread
  rw [Decimal.natural?, hread, isNegative_eq_false h.toNat_toBits hfraction (by omega) rfl]
  simp only [Bool.false_and, if_neg Bool.false_ne_true, Binary.natural?, if_pos hwhole, Nat.pow_eq]

end Reading

/-- What rounding leaves is the nearest multiple of the unit, or infinite if that is too large. -/
lemma exists_normal_of_roundWithAccuracy {excess : Nat} (hlog : significand.log2 = 52 + excess)
    (hlow : -1074 ≤ exponent + excess)
    (hround : x = Float.ofModel (Float.Model.pack
      (roundWithAccuracy Format.binary64 .positive significand exponent .exact))) :
    ∃ rounded carry : Nat, rounded * 2 ^ carry = nearestEven significand (2 ^ excess) ∧ carry ≤ 1 ∧
      (exponent + excess + carry ≤ 971 → Normal x rounded (exponent + excess + carry)) ∧
      (971 < exponent + excess + carry → isFinite x = false) := by
  obtain ⟨rounded, carry, hpos, hrounded, hlog', hcarry, hvalue⟩ :=
    exists_roundWithAccuracy_eq hlog hlow
  rw [hround, hrounded]
  exact ⟨rounded, carry, hvalue, hcarry, normal_pack hlog' (by omega), isFinite_pack_of_lt⟩

end Normal

/-- A whole number of more than 52 bits becomes the nearest multiple of the unit that is left. -/
theorem exists_normal_toFloat (hn : n < 2 ^ 64) (hlog : n.log2 = 52 + k) :
    ∃ rounded carry : Nat, rounded * 2 ^ carry = nearestEven n (2 ^ k) ∧ carry ≤ 1 ∧
      Normal (UInt64.ofNat n).toFloat rounded (0 + k + carry) := by
  have hword : (UInt64.ofNat n).toNat = n := by
    rw [UInt64.toNat_ofNat']
    exact Nat.mod_eq_of_lt hn
  have hpos : 0 < n := by
    rw [Nat.pos_iff_ne_zero]
    rintro rfl
    rw [Nat.log2_zero] at hlog
    omega
  have hbits : n.log2 < 64 := (Nat.log2_lt (Nat.ne_of_gt hpos)).mpr hn
  have hcompare : compare (n : Int) 0 = .gt := Int.compare_eq_gt.mpr (by omega)
  have htarget : Format.binary64.targetExponent (totalExponent n 0) = (k : Int) := by
    simp only [Format.targetExponent, totalExponent, hlog, Format.mantissaBits, Format.minExponent]
    omega
  have hshift : (0 - (k : Int)).toNat = 0 := by omega
  have hround : UnpackedFloat.ofNat Format.binary64 n =
      roundWithAccuracy Format.binary64 .positive n 0 .exact := by
    rw [UnpackedFloat.ofNat, UnpackedFloat.ofInt, UnpackedFloat.normalize, hcompare]
    simp only [UnpackedFloat.round, Int.toNat_natCast, htarget, decreaseExponent, hshift]
    rfl
  have hfloat : (UInt64.ofNat n).toFloat = Float.ofModel
      (Float.Model.pack (roundWithAccuracy Format.binary64 .positive n 0 .exact)) := by
    have hofNat : (UInt64.ofNat n).toFloat = Float.ofModel (Float.Model.pack
        (UnpackedFloat.ofNat Format.binary64 (UInt64.ofNat n).toNat)) := rfl
    rw [hofNat, hword, hround]
  obtain ⟨rounded, carry, hvalue, hcarry, hnormal, -⟩ :=
    exists_normal_of_roundWithAccuracy hlog (by omega) hfloat
  exact ⟨rounded, carry, hvalue, hcarry, hnormal (by omega)⟩

section Product

variable {x y : Float} {a b excess : Nat} {i j : Int} (hx : Normal x a i) (hy : Normal y b j)
include hx hy

lemma Normal.mul_eq : x * y = Float.ofModel
    (Float.Model.pack (roundWithAccuracy Format.binary64 .positive (a * b) (i + j) .exact)) := by
  obtain ⟨_, hx⟩ := hx.unpack_eq
  obtain ⟨_, hy⟩ := hy.unpack_eq
  change Float.ofModel (Float.Model.pack
    (UnpackedFloat.mul Format.binary64 x.toModel.unpack y.toModel.unpack)) = _
  rw [hx, hy]
  rfl

/-- The product of two significands of 53 bits has 105 or 106 bits. -/
lemma Normal.log2_mul : (a * b).log2 = 52 + 52 ∨ (a * b).log2 = 52 + 53 := by
  obtain ⟨hlowa, hhigha⟩ := hx.bounds
  obtain ⟨hlowb, hhighb⟩ := hy.bounds
  have hlow : 2 ^ 52 * 2 ^ 52 ≤ a * b := Nat.mul_le_mul hlowa hlowb
  have hhigh : a * b < 2 ^ 53 * 2 ^ 53 := Nat.mul_lt_mul'' hhigha hhighb
  have hne : a * b ≠ 0 := by omega
  rw [Nat.log2_eq_iff hne, Nat.log2_eq_iff hne]
  omega

variable (hlog : (a * b).log2 = 52 + excess) (hwhole : 0 ≤ i + j + excess)
include hlog hwhole

/-- A product that has no bits behind the point after it is rounded is a whole number. -/
theorem Normal.natural?_mul (hfinite : Decimal.isFinite (x * y) = true) :
    Decimal.natural? (x * y) =
      some (nearestEven (a * b) (2 ^ excess) * 2 ^ (i + j + excess).toNat) := by
  obtain ⟨rounded, carry, hvalue, -, hnormal, hinfinite⟩ :=
    exists_normal_of_roundWithAccuracy hlog (by omega) (hx.mul_eq hy)
  have hexp : (i + j + excess + carry).toNat = carry + (i + j + excess).toNat := by omega
  have hhigh : i + j + excess + carry ≤ 971 := by
    by_contra hlarge
    rw [hinfinite (by omega)] at hfinite
    exact Bool.false_ne_true hfinite
  rw [(hnormal hhigh).natural? (by omega), hexp, Nat.pow_add, ← Nat.mul_assoc, hvalue]

lemma Normal.isFinite_mul (hsmall : i + j + excess ≤ 970) : Decimal.isFinite (x * y) = true := by
  obtain ⟨rounded, carry, -, hcarry, hnormal, -⟩ :=
    exists_normal_of_roundWithAccuracy hlog (by omega) (hx.mul_eq hy)
  exact (hnormal (by omega)).isFinite

end Product

end ImageRecipe.Decimal
