import ImageRecipe.Proofs.JsonExtent
import ImageRecipe.Proofs.RoundedFloats
import ImageRecipe.Proofs.SettingsBlock
import ImageRecipe.Workflow.Seed

/-!
# Whole numbers as they are written

A whole number of at most 64 bits is the seed that it denotes. The digits of a
larger one are read as far as they fit and scaled by a power of ten in floats,
and a float is a seed up to `2 ^ 64` itself, which no seed is. So the largest
seed is also what the numbers are read as that are rounded down to `2 ^ 64`.
-/
namespace ImageRecipe.Json

open Decimal

variable {n k : Nat}

/-- The powers of ten that are looked up, and the largest one. -/
lemma toNat_toBits_powerOfTen : ∀ k ∈ 308 :: List.range' 2 21,
    1029 * 2 ^ 52 ≤ (powerOfTen k).toBits.toNat ∧
      (powerOfTen k).toBits.toNat < 2047 * 2 ^ 52 := by
  decide +kernel

/-- The powers of ten that are not looked up are rounded. -/
lemma powerOfTen_eq (hk : 22 < k) (hk' : k ≤ 308) : powerOfTen k = Float.ofModel (Float.Model.pack
    (Float.Model.UnpackedFloat.roundWithAccuracy Float.Model.Format.binary64 .positive
      (2 ^ 53 * 10 ^ k) (-53) .exact)) := by
  have hsmall : ¬ (k : Int) > 2 ^ Float.Model.Format.binary64.exponentBits := by
    change ¬ (k : Int) > 2 ^ 11
    omega
  have hlarge : ¬ (k : Int) < -((2 ^ Float.Model.Format.binary64.exponentBits : Int) +
      (1 : Nat).log2) := by
    change ¬ (k : Int) < -(2 ^ 11 + 0)
    omega
  rw [powerOfTen, Float.ofScientific, dif_neg (by omega)]
  change Float.ofModel (Float.Model.pack
    (Float.Model.UnpackedFloat.ofScientific Float.Model.Format.binary64 1 (k : Int))) = _
  rw [Float.Model.UnpackedFloat.ofScientific, dif_neg Nat.one_ne_zero, if_neg hsmall,
    if_neg hlarge, if_pos (Int.natCast_nonneg k)]
  rfl

lemma log2_ten_pow_bounds (hk : 2 ≤ k) (hk' : k ≤ 307) :
    6 ≤ (10 ^ k).log2 ∧ (10 ^ k).log2 < 1023 := by
  have hne : 10 ^ k ≠ 0 := Nat.ne_of_gt (Nat.pow_pos (by decide))
  have hlow : 10 ^ 2 ≤ 10 ^ k := Nat.pow_le_pow_right (by decide) hk
  rw [Nat.le_log2 hne, Nat.log2_lt hne]
  exact ⟨Nat.le_trans (by decide) hlow,
    Nat.lt_of_le_of_lt (Nat.pow_le_pow_right (by decide) hk') (by decide +kernel)⟩

/-- From a hundred on, the unit of a power of ten is no smaller than that of a hundred. -/
lemma exists_normal_powerOfTen (hk : 2 ≤ k) (hk' : k ≤ 308) :
    ∃ significand exponent, Normal (powerOfTen k) significand exponent ∧ -46 ≤ exponent := by
  by_cases hslow : 22 < k ∧ k ≠ 308
  · obtain ⟨hlow, hhigh⟩ := log2_ten_pow_bounds hk (by omega)
    have hlog : (2 ^ 53 * 10 ^ k).log2 = 52 + ((10 ^ k).log2 + 1) := by
      rw [Nat.mul_comm, log2_mul_two_pow (Nat.ne_of_gt (Nat.pow_pos (by decide)))]
      omega
    obtain ⟨rounded, carry, -, hcarry, hnormal, -⟩ :=
      exists_normal_of_roundWithAccuracy hlog (by omega) (powerOfTen_eq hslow.1 hk')
    exact ⟨_, _, hnormal (by omega), by omega⟩
  · have hmem : k ∈ 308 :: List.range' 2 21 := by
      rw [List.mem_cons, List.mem_range'_1]
      omega
    obtain ⟨hlow, hhigh⟩ := toNat_toBits_powerOfTen k hmem
    exact ⟨_, _, normal_of_toNat_toBits (by omega) hhigh, by omega⟩

lemma normal_powerOfTen_one : Normal (powerOfTen 1) (5 * 2 ^ 50) (-49) := by
  have hbits : (powerOfTen 1).toBits.toNat = 0x4024000000000000 := by decide +kernel
  have hnormal := @normal_of_toNat_toBits (powerOfTen 1) (by omega) (by omega)
  rw [hbits] at hnormal
  exact hnormal

/-- A product, if it is finite. -/
def finiteProduct? (x y : Float) : Option Float :=
  if isFinite (x * y) then some (x * y) else none

section Products

variable {x y : Float} {a b excess : Nat} {i j : Int}

/-- A product is no seed if it is at least `low * 2 ^ l` and that is too large. -/
lemma seed_product_eq_none (hx : Normal x a i) (hy : Normal y b j)
    (hlog : (a * b).log2 = 52 + excess) (low l : Nat)
    (hlow : low ≤ nearestEven (a * b) (2 ^ excess)) (hl : l ≤ i + j + excess)
    (hlarge : UInt64.size < low * 2 ^ l) : (finiteProduct? x y).bind Seed.ofFloat? = none := by
  have hunit : 2 ^ l ≤ 2 ^ (i + j + excess).toNat := Nat.pow_le_pow_right (by decide) (by omega)
  have hproduct := Nat.lt_of_lt_of_le hlarge (Nat.mul_le_mul hlow hunit)
  rw [finiteProduct?]
  split
  · rename_i hfinite
    rw [Option.bind_some, Seed.ofFloat?, hx.natural?_mul hy hlog (by omega) hfinite,
      Option.bind_some, if_neg (Nat.not_le.mpr hproduct)]
  · rfl

lemma seed_product_eq_none_of_exponent (hx : Normal x a i) (hy : Normal y b j)
    (hexp : -39 ≤ i + j) : (finiteProduct? x y).bind Seed.ofFloat? = none := by
  obtain hlog | hlog := hx.log2_mul hy
  · exact seed_product_eq_none hx hy hlog (2 ^ 52) 13 (nearestEven_bounds hlog).1 (by omega)
      (by decide)
  · exact seed_product_eq_none hx hy hlog (2 ^ 52) 13 (nearestEven_bounds hlog).1 (by omega)
      (by decide)

/-- Ten times this float is rounded down to `2 ^ 64`. -/
lemma seed_product_ten (hx : Normal x 7205759403792794 8) :
    (finiteProduct? x (powerOfTen 1)).bind Seed.ofFloat? = some 18446744073709551615 := by
  have hlog : (7205759403792794 * (5 * 2 ^ 50)).log2 = 52 + 53 := by decide
  have hfinite := hx.isFinite_mul normal_powerOfTen_one hlog (by decide) (by decide)
  have hvalue := hx.natural?_mul normal_powerOfTen_one hlog (by decide) hfinite
  have hlimit : nearestEven (7205759403792794 * (5 * 2 ^ 50)) (2 ^ 53) *
      2 ^ ((8 : Int) + -49 + (53 : Nat)).toNat = UInt64.size := by decide
  rw [hlimit] at hvalue
  rw [finiteProduct?, if_pos hfinite, Option.bind_some, Seed.ofFloat?, hvalue, Option.bind_some,
    if_pos (Nat.le_refl _)]
  rfl

/-- Ten times any larger float is rounded to more than `2 ^ 64`. -/
lemma seed_product_ten_eq_none (hx : Normal x a i)
    (hlarge : 9 ≤ i ∨ i = 8 ∧ 7205759403792795 ≤ a) :
    (finiteProduct? x (powerOfTen 1)).bind Seed.ofFloat? = none := by
  obtain ⟨hlow, hhigh⟩ := hx.bounds
  obtain hlog | hlog := hx.log2_mul normal_powerOfTen_one
  · have hbounds := (Nat.log2_eq_iff (by omega)).mp hlog
    have hfloor : 5 * 2 ^ 50 ≤ a * (5 * 2 ^ 50) / 2 ^ 52 := by omega
    exact seed_product_eq_none hx normal_powerOfTen_one hlog (5 * 2 ^ 50) 12
      (Nat.le_trans hfloor (div_le_nearestEven _ _)) (by omega) (by decide)
  · obtain hi | ⟨rfl, ha⟩ := hlarge
    · exact seed_product_eq_none hx normal_powerOfTen_one hlog (2 ^ 52) 13
        (nearestEven_bounds hlog).1 (by omega) (by decide)
    · exact seed_product_eq_none hx normal_powerOfTen_one hlog 4503599627370497 12
        (le_nearestEven (Nat.two_pow_pos 53) (by omega)) (by omega) (by decide)

end Products

section Scaled

variable {s : Nat}

lemma scale?_natCast (hk : k ≤ 308) :
    scale? s k = finiteProduct? (UInt64.ofNat s).toFloat (powerOfTen k) := by
  have hsmall : ¬ (308 : Int) < k := by omega
  simp only [scale?, finiteProduct?, if_neg hsmall, if_pos (Int.natCast_nonneg k),
    Int.toNat_natCast]

-- the digits that are kept are at least a tenth of `2 ^ 64`, or one more would have fitted
variable (hlow : 1844674407370955161 ≤ s) (hhigh : s < UInt64.size)
include hlow hhigh

/-- The first digits of a number that does not fit 64 bits, as a float. -/
lemma exists_normal_kept : ∃ rounded excess carry : Nat,
    s.log2 = 52 + excess ∧ 8 ≤ excess ∧ carry ≤ 1 ∧
      rounded * 2 ^ carry = nearestEven s (2 ^ excess) ∧
      Normal (UInt64.ofNat s).toFloat rounded (0 + excess + carry) := by
  have hlog : 60 ≤ s.log2 := (Nat.le_log2 (by omega)).mpr (by omega)
  obtain ⟨excess, hexcess⟩ := Nat.exists_eq_add_of_le (Nat.le_trans (by decide : 52 ≤ 60) hlog)
  obtain ⟨rounded, carry, hvalue, hcarry, hnormal⟩ := exists_normal_toFloat hhigh hexcess
  exact ⟨rounded, excess, carry, hexcess, by omega, hcarry, hvalue, hnormal⟩

/-- A number with at least two digits more than fit is no seed. -/
lemma seed_scale?_of_two_le (hk : 2 ≤ k) : (scale? s k).bind Seed.ofFloat? = none := by
  by_cases hlarge : 308 < k
  · have hlarge' : (308 : Int) < k := by omega
    have hne : ¬ (s == 0) = true := by
      rw [beq_iff_eq]
      omega
    simp only [scale?, if_pos hlarge', if_neg hne, Option.bind_none]
  · obtain ⟨rounded, excess, carry, -, hexcess, -, -, hx⟩ := exists_normal_kept hlow hhigh
    obtain ⟨significand, exponent, hy, hexponent⟩ := exists_normal_powerOfTen hk (by omega)
    rw [scale?_natCast (by omega)]
    exact seed_product_eq_none_of_exponent hx hy (by omega)

/-- The digits of the numbers that are rounded down to `2 ^ 64` are one float. -/
lemma normal_kept_of_le (hsmall : s ≤ 1844674407370955392) :
    Normal (UInt64.ofNat s).toFloat 7205759403792794 8 := by
  obtain ⟨rounded, excess, carry, hexcess, hmore, hcarry, hvalue, hx⟩ :=
    exists_normal_kept hlow hhigh
  obtain ⟨hlowr, -⟩ := hx.bounds
  obtain ⟨hleft, -⟩ := (Nat.log2_eq_iff (by omega)).mp hexcess
  obtain rfl : excess = 8 := by
    have hbits : 2 ^ (52 + excess) < 2 ^ 61 := Nat.lt_of_le_of_lt hleft (by omega)
    have hlt := (Nat.pow_lt_pow_iff_right (by decide)).mp hbits
    omega
  have hnearest : nearestEven s (2 ^ 8) = 7205759403792794 :=
    Nat.le_antisymm (nearestEven_le (Nat.two_pow_pos 8) (by decide) (by omega))
      (le_nearestEven (Nat.two_pow_pos 8) (by omega))
  obtain rfl : carry = 0 := by
    obtain rfl | rfl := Nat.le_one_iff_eq_zero_or_eq_one.mp hcarry <;> omega
  obtain rfl : rounded = 7205759403792794 := by omega
  exact hx

/-- The digits of the numbers above them are larger floats. -/
lemma exists_normal_kept_of_lt (hlarge : 1844674407370955392 < s) :
    ∃ a i, Normal (UInt64.ofNat s).toFloat a i ∧ (9 ≤ i ∨ i = 8 ∧ 7205759403792795 ≤ a) := by
  obtain ⟨rounded, excess, carry, hexcess, hmore, hcarry, hvalue, hx⟩ :=
    exists_normal_kept hlow hhigh
  refine ⟨rounded, _, hx, ?_⟩
  obtain rfl | hnine := Nat.eq_or_lt_of_le hmore
  · have hnearest : 7205759403792795 ≤ nearestEven s (2 ^ 8) :=
      le_nearestEven (Nat.two_pow_pos 8) (by omega)
    obtain rfl | rfl := Nat.le_one_iff_eq_zero_or_eq_one.mp hcarry <;> omega
  · omega

/-- A number with one digit more than fits is no seed unless it is rounded down to `2 ^ 64`. -/
lemma seed_scale?_one : (scale? s (1 : Nat)).bind Seed.ofFloat? =
    if s ≤ 1844674407370955392 then some 18446744073709551615 else none := by
  rw [scale?_natCast (by decide)]
  split
  · rename_i hsmall
    exact seed_product_ten (normal_kept_of_le hlow hhigh hsmall)
  · rename_i hlarge
    obtain ⟨a, i, hx, hbounds⟩ := exists_normal_kept_of_lt hlow hhigh (Nat.lt_of_not_le hlarge)
    exact seed_product_ten_eq_none hx hbounds

end Scaled

/-- The number that is read from digits behind those of `start`. -/
def valueFrom (start : Nat) (digits : List Char) : Nat :=
  digits.foldl (fun n c => n * 10 + (c.toNat - '0'.toNat)) start

section Kept

variable {start : Nat} {digits : List Char} (hdigits : ∀ c ∈ digits, c.isDigit = true)
include hdigits

lemma valueFrom_div_pow_length (start : Nat) :
    valueFrom start digits / 10 ^ digits.length = start := by
  induction digits generalizing start with
  | nil => exact Nat.div_one start
  | cons c rest ih =>
    obtain ⟨hc, hrest⟩ := List.forall_mem_cons.mp hdigits
    have hle : c.toNat ≤ '9'.toNat := (Char.isDigit_iff_toNat.mp hc).2
    have hdigit : c.toNat - '0'.toNat < 10 := by
      have hnine : '9'.toNat - '0'.toNat < 10 := by decide
      omega
    rw [List.length_cons, Nat.pow_succ, ← Nat.div_div_eq_div_mul]
    change valueFrom (start * 10 + (c.toNat - '0'.toNat)) rest / 10 ^ rest.length / 10 = start
    rw [ih hrest]
    omega

/-- All digits are kept if the number fits 64 bits, and otherwise as many as fit. -/
lemma exists_extend_eq (hstart : start < UInt64.size) : ∃ dropped,
    Significand.extend start digits = ⟨valueFrom start digits / 10 ^ dropped, dropped⟩ ∧
      valueFrom start digits / 10 ^ dropped < UInt64.size ∧
      (dropped = 0 ∨ UInt64.size ≤ valueFrom start digits / 10 ^ (dropped - 1)) := by
  induction digits generalizing start with
  | nil => exact ⟨0, by simp [Significand.extend, valueFrom], by simpa [valueFrom], Or.inl rfl⟩
  | cons c rest ih =>
    obtain ⟨-, hrest⟩ := List.forall_mem_cons.mp hdigits
    by_cases hfits : start * 10 + (c.toNat - '0'.toNat) < UInt64.size
    · rw [Significand.extend, if_pos hfits]
      exact ih hrest hfits
    · have hnext := valueFrom_div_pow_length hrest (start * 10 + (c.toNat - '0'.toNat))
      refine ⟨rest.length + 1, ?_, ?_, Or.inr ?_⟩
      · rw [Significand.extend, if_neg hfits, ← List.length_cons,
          valueFrom_div_pow_length hdigits]
      · rw [← List.length_cons, valueFrom_div_pow_length hdigits]
        exact hstart
      · rw [Nat.add_sub_cancel]
        exact Nat.le_of_not_lt (hnext ▸ hfits)

end Kept

/-- A whole number as it is written: no sign, no fraction and no exponent. -/
def plainNumeral (n : Nat) : Numeral := ⟨false, Nat.toDigits 10 n, [], none⟩

lemma forall_isDigit_toDigits (n : Nat) : ∀ c ∈ Nat.toDigits 10 n, c.isDigit = true :=
  fun _ => Nat.isDigit_of_mem_toDigits (by decide) (by decide)

lemma ne_of_isDigit {c d : Char} (hc : c.isDigit = true) (hd : d.isDigit = false) : c ≠ d := by
  rintro rfl
  exact Bool.false_ne_true (hd.symm.trans hc)

lemma exists_toDigits_eq_cons (n : Nat) :
    ∃ c rest, Nat.toDigits 10 n = c :: rest ∧ c.isDigit = true := by
  obtain ⟨c, rest, hdigits⟩ := List.exists_cons_of_ne_nil (@Nat.toDigits_ne_nil n 10)
  exact ⟨c, rest, hdigits, forall_isDigit_toDigits n c (hdigits ▸ List.mem_cons_self)⟩

/-- Only zero is written with a zero first. -/
lemma head_toDigits_ne (hn : n ≠ 0) : (Nat.toDigits 10 n).head? ≠ some '0' := by
  induction n using Nat.strongRecOn with
  | ind n ih =>
    rw [Nat.toDigits_eq_if (by decide)]
    split
    · rename_i hlt
      have hall : ∀ d < 10, d ≠ 0 → [d.digitChar].head? ≠ some '0' := by decide
      exact hall n hlt hn
    · rw [List.head?_append_of_ne_nil _ Nat.toDigits_ne_nil]
      exact ih (n / 10) (by omega) (by omega)

lemma numeral?_toDigits (n : Nat) : numeral? (Nat.toDigits 10 n) = some (plainNumeral n, []) := by
  obtain ⟨c, rest, hdigits, hc⟩ := exists_toDigits_eq_cons n
  have hspan : (Nat.toDigits 10 n).span Char.isDigit = (Nat.toDigits 10 n, []) :=
    span_eq_iff.mpr ⟨(List.append_nil _).symm, forall_isDigit_toDigits n, by simp⟩
  have hleading : ((Nat.toDigits 10 n).isEmpty ||
      (Nat.toDigits 10 n).head? == some '0' && (Nat.toDigits 10 n).length != 1) = false := by
    by_cases hn : n = 0
    · subst hn
      rfl
    · rw [List.isEmpty_eq_false_iff.mpr Nat.toDigits_ne_nil, beq_false_of_ne (head_toDigits_ne hn)]
      rfl
  rw [hdigits, numeral?_of_ne (ne_of_isDigit hc (by decide)), ← hdigits, unsigned?, hspan]
  simp only [hleading]
  rfl

/-- A text of digits is read as the number that its numeral stands for. -/
lemma parse?_decimalText (n : Nat) :
    parse? (Text.decimalText n) = (plainNumeral n).number?.map Json.num := by
  obtain ⟨c, rest, hdigits, hc⟩ := exists_toDigits_eq_cons n
  have hspace : ¬ isSpace c = true := fun h =>
    Bool.false_ne_true ((Text.isBlank_of_isDigit hc).symm.trans (isBlank_of_isSpace h))
  have hskip : skipSpaces (Nat.toDigits 10 n) = c :: rest := by
    rw [hdigits]
    exact List.dropWhile_cons_of_neg hspace
  have hscalar : scalar? (c :: rest) = number? (c :: rest) := by
    rw [scalar?.eq_5]
    all_goals
      intro _ heq
      exact ne_of_isDigit hc (by decide) (List.head_eq_of_cons_eq heq)
  have hvalue : value? maxNesting (Nat.toDigits 10 n) =
      (plainNumeral n).number?.map fun x => (Json.num x, []) := by
    rw [maxNesting,
      value?_of_ne hskip (ne_of_isDigit hc (by decide)) (ne_of_isDigit hc (by decide)),
      hscalar, ← hdigits, number?, numeral?_toDigits, Option.map_eq_bind]
    rfl
  rw [parse?, Text.decimalText, String.toList_ofList, parseChars?, hvalue]
  cases (plainNumeral n).number? <;> rfl

/-- The number that a whole number is read as: itself if it fits 64 bits, and otherwise its first
digits times a power of ten. -/
lemma number?_plainNumeral (n : Nat) :
    n < UInt64.size ∧ (plainNumeral n).number? = some (.int n) ∨
      ∃ dropped, n / 10 ^ (dropped + 1) < UInt64.size ∧ UInt64.size ≤ n / 10 ^ dropped ∧
        (plainNumeral n).number? =
          (scale? (n / 10 ^ (dropped + 1)) (dropped + 1 : Nat)).map Number.real := by
  have hvalue : valueFrom 0 (Nat.toDigits 10 n) = n := ParameterText.decimalValue_toDigits n
  obtain ⟨dropped, hextend, hlt, hle⟩ :=
    @exists_extend_eq 0 (Nat.toDigits 10 n) (forall_isDigit_toDigits n) (by decide)
  rw [hvalue] at hextend hlt hle
  cases dropped with
  | zero =>
    rw [Nat.pow_zero, Nat.div_one] at hextend hlt
    refine Or.inl ⟨hlt, ?_⟩
    simp only [Numeral.number?, plainNumeral, hextend]
    rfl
  | succ dropped =>
    refine Or.inr ⟨dropped, hlt, hle.resolve_left (Nat.succ_ne_zero _), ?_⟩
    have hexponent : ((dropped + 1 : Nat) : Int) - (0 : Nat) + 0 = (dropped + 1 : Nat) := by omega
    simp only [Numeral.number?, plainNumeral, hextend]
    rw [if_neg (by simp), ← hexponent]
    rfl

end ImageRecipe.Json

namespace ImageRecipe.Seed

open Json

/-- The largest whole number that is rounded down to `2 ^ 64` when it is read. -/
def roundedLimit : Nat := 18446744073709553929

lemma bind_map_real (x : Option Float) :
    ((x.map Number.real).map Json.num).bind ofJson? = x.bind ofFloat? := by
  cases x <;> rfl

/-- A whole number is the seed that it is if it fits 64 bits. Of the numbers that do not fit, those
that are rounded down to `2 ^ 64` are taken for the largest seed, and the others are no seeds. -/
theorem ofJson?_decimalText (n : Nat) : (Json.parse? (Text.decimalText n)).bind ofJson? =
    if n < UInt64.size then some (UInt64.ofNat n)
    else if n ≤ roundedLimit then some 18446744073709551615 else none := by
  rw [parse?_decimalText]
  obtain ⟨hfits, hnumber⟩ | ⟨dropped, hlt, hle, hnumber⟩ := number?_plainNumeral n
  · have hseed := ofJson?_toNat (UInt64.ofNat n)
    rw [UInt64.toNat_ofNat', Nat.mod_eq_of_lt hfits] at hseed
    rw [if_pos hfits, hnumber, Option.map_some, Option.bind_some, hseed]
  · have hlarge : ¬ n < UInt64.size := Nat.not_lt.mpr (Nat.le_trans hle (Nat.div_le_self n _))
    have hlow : 1844674407370955161 ≤ n / 10 ^ (dropped + 1) := by
      rw [Nat.pow_succ, ← Nat.div_div_eq_div_mul, Nat.le_div_iff_mul_le (by decide)]
      exact Nat.le_trans (by decide) hle
    rw [if_neg hlarge, hnumber, bind_map_real]
    cases dropped with
    | zero =>
      have hlimit : n / 10 ^ (0 + 1) ≤ 1844674407370955392 ↔ n ≤ roundedLimit := by
        rw [roundedLimit]
        omega
      rw [seed_scale?_one hlow hlt, if_congr hlimit rfl rfl]
    | succ dropped =>
      have hmore : ¬ n ≤ roundedLimit := by
        have hten : 10 ≤ 10 ^ (dropped + 1) := Nat.le_self_pow (Nat.succ_ne_zero _) 10
        have hwhole : UInt64.size * 10 ^ (dropped + 1) ≤ n :=
          (Nat.le_div_iff_mul_le (Nat.pow_pos (by decide))).mp hle
        have hsize : UInt64.size * 10 ≤ n := Nat.le_trans (Nat.mul_le_mul_left _ hten) hwhole
        exact Nat.not_le.mpr (Nat.lt_of_lt_of_le (by decide) hsize)
      rw [seed_scale?_of_two_le hlow hlt (Nat.le_add_left 2 dropped), if_neg hmore]

/-- The first number that does not fit 64 bits is taken for the last one that does. -/
theorem ofJson?_decimalText_size_ne_none :
    ¬ (Json.parse? (Text.decimalText UInt64.size)).bind ofJson? = none := by
  decide +kernel

end ImageRecipe.Seed
