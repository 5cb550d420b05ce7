import ImageRecipe.Text.Encoding
import Mathlib.Algebra.Order.Ring.Nat
import Mathlib.Data.List.Basic
import Mathlib.Data.List.TakeWhile
import Mathlib.Tactic.Common

/-!
# Numbers in either byte order, and UTF-16 and back

A number is read from the bytes that write it, in the order in which they were
written. A text is written in UTF-16 with two units for a character above U+FFFF,
and reading the units gives the text back up to its first NUL.
-/
namespace ImageRecipe.Text

/-- The bytes of a number, the lowest first. -/
def lowFirst : Nat → Nat → Bytes
  | 0, _ => []
  | size + 1, n => UInt8.ofNat n :: lowFirst size (n / 256)

/-- The bytes that write a number in an order. -/
def ByteOrder.bytes (order : ByteOrder) (size n : Nat) : Bytes :=
  match order with
  | .little => lowFirst size n
  | .big => (lowFirst size n).reverse

@[simp] lemma length_lowFirst (size n : Nat) : (lowFirst size n).length = size := by
  induction size generalizing n with
  | zero => rfl
  | succ size ih => rw [lowFirst, List.length_cons, ih]

@[simp] lemma ByteOrder.length_bytes (order : ByteOrder) (size n : Nat) :
    (order.bytes size n).length = size := by
  cases order <;> simp [bytes]

lemma foldr_lowFirst {size n : Nat} (h : n < 256 ^ size) :
    (lowFirst size n).foldr (fun b m => m * 256 + b.toNat) 0 = n := by
  induction size generalizing n with
  | zero =>
    rw [pow_zero, Nat.lt_one_iff] at h
    rw [h]
    rfl
  | succ size ih =>
    have hdiv : n / 256 < 256 ^ size := by
      rw [Nat.div_lt_iff_lt_mul (by decide), ← pow_succ]
      exact h
    rw [lowFirst, List.foldr_cons, ih hdiv, UInt8.toNat_ofNat']
    omega

/-- A number is read from the bytes that write it. -/
lemma ByteOrder.number_bytes (order : ByteOrder) {size n : Nat} (h : n < 256 ^ size) :
    order.number (order.bytes size n) = n := by
  have hread : ((lowFirst size n).reverse).foldl (fun m b => m * 256 + b.toNat) 0 = n := by
    rw [List.foldl_reverse, foldr_lowFirst h]
  cases order with
  | little => exact hread
  | big => exact hread

lemma foldr_lt (bytes : Bytes) :
    bytes.foldr (fun b m => m * 256 + b.toNat) 0 < 256 ^ bytes.length := by
  induction bytes with
  | nil => exact Nat.one_pos
  | cons b bytes ih =>
    have hb := b.toNat_lt
    rw [List.foldr_cons, List.length_cons, pow_succ]
    omega

lemma lowFirst_foldr (bytes : Bytes) :
    lowFirst bytes.length (bytes.foldr (fun b m => m * 256 + b.toNat) 0) = bytes := by
  induction bytes with
  | nil => rfl
  | cons b bytes ih =>
    have hb := b.toNat_lt
    have hlow : ∀ m, UInt8.ofNat (m * 256 + b.toNat) = b := by
      intro m
      rw [← UInt8.toNat_inj, UInt8.toNat_ofNat']
      omega
    have hhigh : ∀ m, (m * 256 + b.toNat) / 256 = m := by
      intro m
      omega
    rw [List.length_cons, List.foldr_cons, lowFirst, hlow, hhigh, ih]

lemma ByteOrder.number_lt (order : ByteOrder) (bytes : Bytes) :
    order.number bytes < 256 ^ bytes.length := by
  have hbig : bytes.foldl (fun m b => m * 256 + b.toNat) 0 < 256 ^ bytes.length := by
    rw [← List.foldr_reverse, ← List.length_reverse]
    exact foldr_lt bytes.reverse
  have hlittle : bytes.reverse.foldl (fun m b => m * 256 + b.toNat) 0 < 256 ^ bytes.length := by
    rw [List.foldl_reverse]
    exact foldr_lt bytes
  cases order with
  | little => exact hlittle
  | big => exact hbig

/-- Any bytes write the number that is read from them. -/
lemma ByteOrder.bytes_number (order : ByteOrder) (bytes : Bytes) :
    order.bytes bytes.length (order.number bytes) = bytes := by
  have hlittle : lowFirst bytes.length
      (bytes.reverse.foldl (fun m b => m * 256 + b.toNat) 0) = bytes := by
    rw [List.foldl_reverse, lowFirst_foldr]
  have hbig : (lowFirst bytes.length
      (bytes.foldl (fun m b => m * 256 + b.toNat) 0)).reverse = bytes := by
    rw [← List.foldr_reverse, ← List.length_reverse, lowFirst_foldr, List.reverse_reverse]
  cases order with
  | little => exact hlittle
  | big => exact hbig

/-- The units of a character in UTF-16. -/
def utf16Units (c : Char) : List Nat :=
  if c.toNat < 0x10000 then [c.toNat]
  else [0xD800 + (c.toNat - 0x10000) / 1024, 0xDC00 + (c.toNat - 0x10000) % 1024]

/-- The bytes of a text in UTF-16. -/
def utf16Bytes (order : ByteOrder) (s : String) : Bytes :=
  (s.toList.flatMap utf16Units).flatMap (order.bytes 2)

lemma not_surrogate (c : Char) : c.toNat < 0xD800 ∨ 0xDFFF < c.toNat ∧ c.toNat < 0x110000 := c.valid

/-- A character is read off its units, whatever follows. -/
lemma utf16Chars_utf16Units (c : Char) (rest : List Nat) :
    utf16Chars (utf16Units c ++ rest) = c :: utf16Chars rest := by
  have hc := not_surrogate c
  unfold utf16Units
  split_ifs with hlow
  · have hhigh : isHighSurrogate c.toNat = false := by
      simp only [isHighSurrogate, Bool.and_eq_false_iff, decide_eq_false_iff_not]
      omega
    have hlow : isLowSurrogate c.toNat = false := by
      simp only [isLowSurrogate, Bool.and_eq_false_iff, decide_eq_false_iff_not]
      omega
    rw [List.singleton_append, utf16Chars.eq_def]
    simp only [hhigh, hlow, Bool.false_eq_true, if_false, Char.ofNat_toNat]
  · have hhigh : isHighSurrogate (0xD800 + (c.toNat - 0x10000) / 1024) = true := by
      simp only [isHighSurrogate, Bool.and_eq_true, decide_eq_true_eq]
      omega
    have hlow : isLowSurrogate (0xDC00 + (c.toNat - 0x10000) % 1024) = true := by
      simp only [isLowSurrogate, Bool.and_eq_true, decide_eq_true_eq]
      omega
    have hpair : surrogatePair (0xD800 + (c.toNat - 0x10000) / 1024)
        (0xDC00 + (c.toNat - 0x10000) % 1024) = c.toNat := by
      unfold surrogatePair
      omega
    simp only [List.cons_append, List.nil_append, utf16Chars, hhigh, hlow, if_true, hpair,
      Char.ofNat_toNat]

lemma utf16Chars_flatMap (s : List Char) : utf16Chars (s.flatMap utf16Units) = s := by
  induction s with
  | nil => rfl
  | cons c s ih => rw [List.flatMap_cons, utf16Chars_utf16Units, ih]

lemma lt_of_mem_utf16Units {c : Char} {u : Nat} (h : u ∈ utf16Units c) : u < 0x10000 := by
  have hc := not_surrogate c
  unfold utf16Units at h
  split_ifs at h with hlow
  · rw [List.mem_singleton] at h
    omega
  · simp only [List.mem_cons, List.not_mem_nil, or_false] at h
    omega

lemma toNat_ne_zero {c : Char} (hc : c ≠ '\x00') : c.toNat ≠ 0 := fun h =>
  hc (Char.ext (UInt32.toNat_inj.mp h))

lemma ne_zero_of_mem_utf16Units {c : Char} (hc : c ≠ '\x00') {u : Nat} (h : u ∈ utf16Units c) :
    u ≠ 0 := by
  have hne := toNat_ne_zero hc
  unfold utf16Units at h
  split_ifs at h
  · rw [List.mem_singleton] at h
    omega
  · simp only [List.mem_cons, List.not_mem_nil, or_false] at h
    omega

/-- Units are read from the bytes that write them. -/
lemma units16_flatMap (order : ByteOrder) {units : List Nat} (h : ∀ u ∈ units, u < 0x10000) :
    units16 order (units.flatMap (order.bytes 2)) = units := by
  induction units with
  | nil => rfl
  | cons u units ih =>
    obtain ⟨hu, hunits⟩ := List.forall_mem_cons.mp h
    obtain ⟨a, b, hbytes⟩ := List.length_eq_two.mp (order.length_bytes 2 u)
    have hnumber : order.number (order.bytes 2 u) = u := order.number_bytes hu
    rw [hbytes] at hnumber
    rw [List.flatMap_cons, hbytes, List.cons_append, List.cons_append, List.nil_append, units16,
      hnumber, ih hunits]

/-- Reading undoes writing, for a text without NUL. -/
theorem utf16Text_utf16Bytes (order : ByteOrder) {s : String} (h : '\x00' ∉ s.toList) :
    utf16Text order (utf16Bytes order s) = s := by
  have hlt : ∀ u ∈ s.toList.flatMap utf16Units, u < 0x10000 := by
    intro u hu
    obtain ⟨c, -, hc⟩ := List.mem_flatMap.mp hu
    exact lt_of_mem_utf16Units hc
  have hne : ∀ u ∈ s.toList.flatMap utf16Units, (u != 0) = true := by
    intro u hu
    obtain ⟨c, hmem, hc⟩ := List.mem_flatMap.mp hu
    exact bne_iff_ne.mpr (ne_zero_of_mem_utf16Units (fun hzero => h (hzero ▸ hmem)) hc)
  have htake : (s.toList.flatMap utf16Units).takeWhile (· != 0) = s.toList.flatMap utf16Units :=
    List.takeWhile_eq_self_iff.mpr hne
  rw [utf16Text, utf16Bytes, units16_flatMap order hlt, htake, utf16Chars_flatMap,
    String.ofList_toList]

end ImageRecipe.Text
