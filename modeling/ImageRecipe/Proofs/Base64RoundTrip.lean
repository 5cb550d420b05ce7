import ImageRecipe.Bytes.Base64
import Mathlib.Tactic.Common

/-!
# Base64 and back

The padded base64 of some bytes, and that decoding gives these bytes wherever
blanks stand between its characters.
-/
namespace ImageRecipe.Base64

/-- The characters that stand for the values below 64. -/
def alphabet : List Char :=
  "ABCDEFGHIJKLMNOPQRSTUVWXYZabcdefghijklmnopqrstuvwxyz0123456789+/".toList

/-- The character that stands for a value. -/
def digit (n : Nat) : Char := alphabet.getD n '='

/-- The bits of some bytes in groups of six, the last one filled up with zeros. -/
def sextets : Bytes → List Nat
  | [] => []
  | [a] => [a.toNat / 4, a.toNat % 4 * 16]
  | [a, b] => [a.toNat / 4, a.toNat % 4 * 16 + b.toNat / 16, b.toNat % 16 * 4]
  | a :: b :: c :: rest =>
    a.toNat / 4 :: (a.toNat % 4 * 16 + b.toNat / 16) :: (b.toNat % 16 * 4 + c.toNat / 64) ::
      c.toNat % 64 :: sextets rest

/-- The padded base64 of some bytes. -/
def encode (bytes : Bytes) : List Char :=
  (sextets bytes).map digit ++ List.replicate ((3 - bytes.length % 3) % 3) '='

lemma value?_digit {n : Nat} (h : n < 64) : value? (digit n) = some n := by
  have hall : ∀ n < 64, value? (digit n) = some n := by decide +kernel
  exact hall n h

lemma digit_ne_padding {n : Nat} (h : n < 64) : digit n ≠ '=' := by
  have hall : ∀ n < 64, digit n ≠ '=' := by decide +kernel
  exact hall n h

lemma sextets_lt (bytes : Bytes) : ∀ n ∈ sextets bytes, n < 64 := by
  have hlt : ∀ b : UInt8, b.toNat < 256 := UInt8.toNat_lt
  fun_induction sextets bytes with
  | case1 => simp
  | case2 a =>
    have ha := hlt a
    simp only [List.forall_mem_cons]
    exact ⟨by omega, by omega, by simp⟩
  | case3 a b =>
    have ha := hlt a
    have hb := hlt b
    simp only [List.forall_mem_cons]
    exact ⟨by omega, by omega, by omega, by simp⟩
  | case4 a b c rest ih =>
    have ha := hlt a
    have hb := hlt b
    have hc := hlt c
    simp only [List.forall_mem_cons]
    exact ⟨by omega, by omega, by omega, by omega, ih⟩

/-- Putting the groups of six bits together gives the bytes back. -/
theorem bytesOf?_sextets (bytes : Bytes) : bytesOf? (sextets bytes) = some bytes := by
  have hlt : ∀ b : UInt8, b.toNat < 256 := UInt8.toNat_lt
  -- the byte that the parts of two or more groups make up
  have hbyte : ∀ (b : UInt8) {n : Nat}, n = b.toNat → UInt8.ofNat n = b := by
    rintro b n rfl
    exact UInt8.ofNat_toNat
  fun_induction sextets bytes with
  | case1 => rfl
  | case2 a =>
    have ha := hbyte a (show a.toNat / 4 * 4 + a.toNat % 4 * 16 / 16 = a.toNat by omega)
    have hzero : (a.toNat % 4 * 16 % 16 == 0) = true := by rw [beq_iff_eq]; omega
    simp only [bytesOf?, hzero, if_true, ha]
  | case3 a b =>
    have := hlt b
    have ha := hbyte a (show a.toNat / 4 * 4 + (a.toNat % 4 * 16 + b.toNat / 16) / 16 = a.toNat by
      omega)
    have hb := hbyte b (show (a.toNat % 4 * 16 + b.toNat / 16) % 16 * 16 + b.toNat % 16 * 4 / 4 =
      b.toNat by omega)
    have hzero : (b.toNat % 16 * 4 % 4 == 0) = true := by rw [beq_iff_eq]; omega
    simp only [bytesOf?, hzero, if_true, ha, hb]
  | case4 a b c rest ih =>
    have := hlt b
    have := hlt c
    have ha := hbyte a (show a.toNat / 4 * 4 + (a.toNat % 4 * 16 + b.toNat / 16) / 16 = a.toNat by
      omega)
    have hb := hbyte b (show (a.toNat % 4 * 16 + b.toNat / 16) % 16 * 16 +
      (b.toNat % 16 * 4 + c.toNat / 64) / 4 = b.toNat by omega)
    have hc := hbyte c (show (b.toNat % 16 * 4 + c.toNat / 64) % 4 * 64 + c.toNat % 64 = c.toNat by
      omega)
    simp only [bytesOf?, threeBytes, ih, ha, hb, hc, Option.map_some, List.cons_append,
      List.nil_append]

lemma mapM_value?_digits {values : List Nat} (h : ∀ n ∈ values, n < 64) :
    (values.map digit).mapM value? = some values := by
  induction values with
  | nil => rfl
  | cons n values ih =>
    obtain ⟨hn, hrest⟩ := List.forall_mem_cons.mp h
    simp only [List.map_cons, List.mapM_cons, value?_digit hn, ih hrest, Option.bind_eq_bind,
      Option.bind_some, Option.pure_def]

lemma dropEndWhile_padding {values : List Nat} (h : ∀ n ∈ values, n < 64) (k : Nat) :
    Text.dropEndWhile (· == '=') (values.map digit ++ List.replicate k '=') =
      values.map digit := by
  have hpadding : ∀ c ∈ List.replicate k '=', (c == '=') = true := by
    intro c hc
    rw [List.eq_of_mem_replicate hc, beq_self_eq_true]
  have hlast : (values.map digit).reverse.dropWhile (· == '=') = (values.map digit).reverse := by
    cases hdigits : (values.map digit).reverse with
    | nil => rfl
    | cons c rest =>
      have hc : c ∈ values.map digit := by
        rw [← List.mem_reverse, hdigits]
        exact List.mem_cons_self
      obtain ⟨n, hn, rfl⟩ := List.mem_map.mp hc
      exact List.dropWhile_cons_of_neg (by simp [digit_ne_padding (h n hn)])
  rw [Text.dropEndWhile, List.reverse_append, List.reverse_replicate,
    List.dropWhile_append_of_pos hpadding, hlast, List.reverse_reverse]

lemma four_le_length_encode {bytes : Bytes} (h : bytes ≠ []) : 4 ≤ (encode bytes).length := by
  rw [encode, List.length_append, List.length_map, List.length_replicate]
  fun_cases sextets bytes with
  | case1 => exact absurd rfl h
  | case2 => simp
  | case3 => simp
  | case4 a b c rest =>
    simp only [List.length_cons]
    omega

lemma exists_digit_of_mem_encode {bytes : Bytes} {c : Char} (hc : c ∈ encode bytes) :
    c = '=' ∨ ∃ n < 64, c = digit n := by
  rcases List.mem_append.mp hc with hc | hc
  · obtain ⟨n, hn, rfl⟩ := List.mem_map.mp hc
    exact Or.inr ⟨n, sextets_lt bytes n hn, rfl⟩
  · exact Or.inl (List.eq_of_mem_replicate hc)

/-- Decoding undoes encoding, wherever blanks stand between the characters. -/
theorem decode?_of_filter {s : List Char} {bytes : Bytes} (hbytes : bytes ≠ [])
    (hs : (s.filter fun c => !Text.isBlank c) = encode bytes) : decode? s = some bytes := by
  have hlength : ¬ (encode bytes).length < 4 := Nat.not_lt.mpr (four_le_length_encode hbytes)
  have hdigits : Text.dropEndWhile (· == '=') (encode bytes) = (sextets bytes).map digit :=
    dropEndWhile_padding (sextets_lt bytes) _
  simp only [decode?, hs, hlength, if_false, hdigits, mapM_value?_digits (sextets_lt bytes),
    Option.bind_some, bytesOf?_sextets]

example : encode [77, 97, 110, 33] = "TWFuIQ==".toList := by decide +kernel

end ImageRecipe.Base64
