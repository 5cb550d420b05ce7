import ImageRecipe.Text.Encoding
import Mathlib.Tactic.Common

/-!
# UTF-8 and back

Reading the bytes of a string as UTF-8 gives the string. The bytes of a
character begin with a lead byte that says how many follow, and the second one
lies in the range that this lead byte permits.
-/
namespace ImageRecipe.Text

lemma isTail_iff {b : UInt8} : isTail b = true ↔ 128 ≤ b.toNat ∧ b.toNat ≤ 191 := by
  simp only [isTail, Bool.and_eq_true, decide_eq_true_eq, UInt8.le_iff_toNat_le]
  rfl

/-- A second byte makes up no form that is too long, no surrogate and nothing above U+10FFFF. -/
lemma isSecond_iff {lead b : UInt8} : isSecond lead b = true ↔
    128 ≤ b.toNat ∧ b.toNat ≤ 191 ∧ (lead.toNat = 224 → 160 ≤ b.toNat) ∧
      (lead.toNat = 237 → b.toNat ≤ 159) ∧ (lead.toNat = 240 → 144 ≤ b.toNat) ∧
      (lead.toNat = 244 → b.toNat ≤ 143) := by
  simp only [isSecond, beq_iff_eq, ← UInt8.toNat_inj, UInt8.reduceToNat]
  split_ifs <;>
    simp only [isTail_iff, Bool.and_eq_true, decide_eq_true_eq, UInt8.le_iff_toNat_le,
      UInt8.reduceToNat] <;> omega

section Front

variable {lead b₁ b₂ b₃ : UInt8} (rest : Bytes)

lemma utf8Front_one (h : lead.toNat < 128) :
    utf8Front lead rest = (some (Char.ofNat lead.toNat), rest) := by
  have hlead : lead < 0x80 := UInt8.lt_iff_toNat_lt.mpr h
  unfold utf8Front
  rw [if_pos hlead]

lemma utf8Front_two (hlow : 194 ≤ lead.toNat) (hhigh : lead.toNat ≤ 223)
    (h₁ : isTail b₁ = true) : utf8Front lead (b₁ :: rest) =
      (some (Char.ofNat (lead.toNat % 32 * 64 + tailBits b₁)), rest) := by
  simp only [utf8Front, UInt8.lt_iff_toNat_lt, UInt8.le_iff_toNat_le, UInt8.reduceToNat,
    Bool.and_eq_true, decide_eq_true_eq]
  rw [if_neg (by omega), if_pos ⟨hlow, hhigh⟩, if_pos h₁]

lemma utf8Front_three (hlow : 224 ≤ lead.toNat) (hhigh : lead.toNat ≤ 239)
    (h₁ : isSecond lead b₁ = true) (h₂ : isTail b₂ = true) :
    utf8Front lead (b₁ :: b₂ :: rest) =
      (some (Char.ofNat (lead.toNat % 16 * 4096 + tailBits b₁ * 64 + tailBits b₂)), rest) := by
  simp only [utf8Front, UInt8.lt_iff_toNat_lt, UInt8.le_iff_toNat_le, UInt8.reduceToNat,
    Bool.and_eq_true, decide_eq_true_eq]
  rw [if_neg (by omega), if_neg (by omega), if_pos ⟨hlow, hhigh⟩]
  simp only [threeBytes, h₁, h₂, if_true]

lemma utf8Front_four (hlow : 240 ≤ lead.toNat) (hhigh : lead.toNat ≤ 244)
    (h₁ : isSecond lead b₁ = true) (h₂ : isTail b₂ = true) (h₃ : isTail b₃ = true) :
    utf8Front lead (b₁ :: b₂ :: b₃ :: rest) =
      (some (Char.ofNat (lead.toNat % 8 * 262144 + tailBits b₁ * 4096 + tailBits b₂ * 64 +
        tailBits b₃)), rest) := by
  simp only [utf8Front, UInt8.lt_iff_toNat_lt, UInt8.le_iff_toNat_le, UInt8.reduceToNat,
    Bool.and_eq_true, decide_eq_true_eq]
  rw [if_neg (by omega), if_neg (by omega), if_neg (by omega), if_pos ⟨hlow, hhigh⟩]
  simp only [fourBytes, h₁, h₂, h₃, if_true]

end Front

lemma toNat_ofNat_of_lt {n : Nat} (h : n < 256) : (UInt8.ofNat n).toNat = n := by
  rw [UInt8.toNat_ofNat', Nat.mod_eq_of_lt h]

/-- The tail bytes of an encoding hold six bits each. -/
lemma toNat_tail (n : Nat) : (UInt8.ofNat (n % 64 + 128)).toNat = n % 64 + 128 :=
  toNat_ofNat_of_lt (by omega)

lemma isTail_tail (n : Nat) : isTail (UInt8.ofNat (n % 64 + 128)) = true := by
  rw [isTail_iff, toNat_tail]
  omega

lemma tailBits_tail (n : Nat) : tailBits (UInt8.ofNat (n % 64 + 128)) = n % 64 := by
  rw [tailBits, toNat_tail]
  omega

/-- A character is read off the bytes that write it, whatever follows. -/
theorem utf8Front_utf8EncodeChar (c : Char) : ∃ lead bytes,
    String.utf8EncodeChar c = lead :: bytes ∧
      ∀ rest, utf8Front lead (bytes ++ rest) = (some c, rest) := by
  have hvalid : c.toNat < 0xD800 ∨ 0xDFFF < c.toNat ∧ c.toNat < 0x110000 := c.valid
  have hchar : ∀ {n}, n = c.toNat → Char.ofNat n = c := by
    rintro n rfl
    exact Char.ofNat_toNat c
  unfold String.utf8EncodeChar
  simp only [show c.val.toNat = c.toNat from rfl]
  split_ifs with h₁ h₂ h₃
  · refine ⟨_, _, rfl, fun rest => ?_⟩
    have hlead : (UInt8.ofNat c.toNat).toNat = c.toNat := toNat_ofNat_of_lt (by omega)
    rw [List.nil_append, utf8Front_one rest (by omega), hlead, hchar rfl]
  · refine ⟨_, _, rfl, fun rest => ?_⟩
    have hlead : (UInt8.ofNat (c.toNat / 64 % 32 + 192)).toNat = c.toNat / 64 % 32 + 192 :=
      toNat_ofNat_of_lt (by omega)
    rw [List.cons_append, List.nil_append,
      utf8Front_two rest (by omega) (by omega) (isTail_tail c.toNat), hlead, tailBits_tail]
    rw [hchar (by omega)]
  · refine ⟨_, _, rfl, fun rest => ?_⟩
    have hlead : (UInt8.ofNat (c.toNat / 4096 % 16 + 224)).toNat = c.toNat / 4096 % 16 + 224 :=
      toNat_ofNat_of_lt (by omega)
    have hsecond : isSecond (UInt8.ofNat (c.toNat / 4096 % 16 + 224))
        (UInt8.ofNat (c.toNat / 64 % 64 + 128)) = true := by
      rw [isSecond_iff, hlead, toNat_tail]
      omega
    rw [List.cons_append, List.cons_append, List.nil_append,
      utf8Front_three rest (by omega) (by omega) hsecond (isTail_tail c.toNat), hlead,
      tailBits_tail, tailBits_tail]
    rw [hchar (by omega)]
  · refine ⟨_, _, rfl, fun rest => ?_⟩
    have hlead : (UInt8.ofNat (c.toNat / 262144 % 8 + 240)).toNat = c.toNat / 262144 % 8 + 240 :=
      toNat_ofNat_of_lt (by omega)
    have hsecond : isSecond (UInt8.ofNat (c.toNat / 262144 % 8 + 240))
        (UInt8.ofNat (c.toNat / 4096 % 64 + 128)) = true := by
      rw [isSecond_iff, hlead, toNat_tail]
      omega
    rw [List.cons_append, List.cons_append, List.cons_append, List.nil_append,
      utf8Front_four rest (by omega) (by omega) hsecond (isTail_tail _) (isTail_tail c.toNat),
      hlead, tailBits_tail, tailBits_tail, tailBits_tail]
    rw [hchar (by omega)]

/-- Reading takes the characters off one after the other. -/
lemma utf8Pieces_flatMap (s : List Char) :
    utf8Pieces (s.flatMap String.utf8EncodeChar) = s.map some := by
  induction s with
  | nil => rw [List.flatMap_nil, utf8Pieces, List.map_nil]
  | cons c s ih =>
    obtain ⟨lead, bytes, hbytes, hfront⟩ := utf8Front_utf8EncodeChar c
    rw [List.flatMap_cons, hbytes, List.cons_append, utf8Pieces, hfront, ih, List.map_cons]

lemma toList_loop (bytes : ByteArray) (i : Nat) (done : List UInt8) :
    ByteArray.toList.loop bytes i done = done.reverse ++ bytes.data.toList.drop i := by
  fun_induction ByteArray.toList.loop bytes i done with
  | case1 i done h ih =>
    have hlt : i < bytes.data.toList.length := h
    have hget : bytes.get! i = bytes.data.toList[i] := by
      have hdata : i < bytes.data.size := h
      change bytes.data[i]! = _
      rw [getElem!_pos bytes.data i hdata, Array.getElem_toList]
    rw [ih, List.drop_eq_getElem_cons hlt, hget, List.reverse_cons, List.append_assoc]
    rfl
  | case2 i done h =>
    have hle : bytes.data.toList.length ≤ i := Nat.not_lt.mp h
    rw [List.drop_eq_nil_of_le hle, List.append_nil]

/-- The bytes of a string are those of its characters. -/
theorem utf8Bytes_eq_flatMap (s : String) :
    utf8Bytes s = s.toList.flatMap String.utf8EncodeChar := by
  have hlist : ∀ bytes : ByteArray, bytes.toList = bytes.data.toList := fun bytes => by
    rw [ByteArray.toList, toList_loop]
    rfl
  rw [utf8Bytes, hlist, String.toUTF8_eq_toByteArray, ← String.utf8Encode_toList, List.utf8Encode,
    List.toList_data_toByteArray]

lemma mapM_id_map_some {α : Type} (xs : List α) : (xs.map some).mapM id = some xs := by
  induction xs with
  | nil => rfl
  | cons x xs ih => simp [List.mapM_cons, ih]

/-- Reading undoes writing. -/
theorem utf8?_utf8Bytes (s : String) : utf8? (utf8Bytes s) = some s := by
  rw [utf8?, utf8Bytes_eq_flatMap, utf8Pieces_flatMap, mapM_id_map_some, Option.map_some,
    String.ofList_toList]

lemma utf8Bytes_ne_nil {s : String} (h : s ≠ "") : utf8Bytes s ≠ [] := by
  intro hnil
  have hread := utf8?_utf8Bytes s
  rw [hnil, utf8?, utf8Pieces] at hread
  exact h (Option.some.inj hread).symm

lemma utf8OrLatin1_utf8Bytes (s : String) : utf8OrLatin1 (utf8Bytes s) = s := by
  rw [utf8OrLatin1, utf8?_utf8Bytes, Option.getD_some]

lemma utf8Lossy_utf8Bytes (s : String) : utf8Lossy (utf8Bytes s) = s := by
  have hpieces : (s.toList.map some).map (·.getD replacement) = s.toList := by
    rw [List.map_map]
    exact List.map_id _
  rw [utf8Lossy, utf8Bytes_eq_flatMap, utf8Pieces_flatMap, hpieces, String.ofList_toList]

/-- Bytes below 128 are the codes of their characters, so none of them is a broken place. -/
lemma utf8Lossy_eq_latin1 {bytes : Bytes} (h : ∀ b ∈ bytes, b.toNat < 128) :
    utf8Lossy bytes = latin1 bytes := by
  have hpieces : utf8Pieces bytes = bytes.map fun b => some (Char.ofNat b.toNat) := by
    induction bytes with
    | nil => rw [utf8Pieces, List.map_nil]
    | cons b bytes ih =>
      obtain ⟨hb, hbytes⟩ := List.forall_mem_cons.mp h
      rw [utf8Pieces, utf8Front_one bytes hb, ih hbytes, List.map_cons]
  rw [utf8Lossy, hpieces, List.map_map, latin1]
  rfl

/-- A text whose first byte is below 128 begins with the character of that code. -/
theorem exists_cons_of_utf8? {b : UInt8} {bytes : Bytes} {s : String} (hb : b.toNat < 128)
    (h : utf8? (b :: bytes) = some s) : ∃ rest, s.toList = Char.ofNat b.toNat :: rest := by
  rw [utf8?, utf8Pieces, utf8Front_one bytes hb] at h
  obtain ⟨chars, hchars, rfl⟩ := Option.map_eq_some_iff.mp h
  simp only [List.mapM_cons, id, Option.bind_eq_bind, Option.bind_some, Option.bind_eq_some_iff,
    Option.pure_def, Option.some.injEq] at hchars
  obtain ⟨rest, -, rfl⟩ := hchars
  exact ⟨rest, String.toList_ofList⟩

/-- No character but NUL is written with a zero byte. -/
lemma zero_notMem_utf8EncodeChar {c : Char} (hc : c ≠ '\x00') :
    (0 : UInt8) ∉ String.utf8EncodeChar c := by
  have hne : c.toNat ≠ 0 := fun h => hc (Char.ext (UInt32.toNat_inj.mp h))
  unfold String.utf8EncodeChar
  simp only [show c.val.toNat = c.toNat from rfl]
  split_ifs <;>
    simp only [List.mem_cons, List.not_mem_nil, or_false, ← UInt8.toNat_inj, UInt8.toNat_ofNat',
      UInt8.reduceToNat] <;> omega

lemma zero_notMem_utf8Bytes {s : String} (h : '\x00' ∉ s.toList) : 0 ∉ utf8Bytes s := by
  rw [utf8Bytes_eq_flatMap, List.mem_flatMap]
  rintro ⟨c, hc, hzero⟩
  exact zero_notMem_utf8EncodeChar (fun h0 => h (h0 ▸ hc)) hzero

end ImageRecipe.Text
