import ImageRecipe.Image.Exif
import ImageRecipe.Proofs.Utf16RoundTrip
import ImageRecipe.Proofs.Utf8RoundTrip
import Mathlib.Data.List.Infix

/-!
# Texts in Exif values

A text is written in UTF-8 with a zero byte behind it. A comment is written
behind the name of its character set, in UTF-8 or in UTF-16, where a mark or the
zero bytes of Latin text tell the byte order. Either one is read back, and the
byte order of the block makes no difference.
-/
namespace ImageRecipe.Exif

open Text (ByteOrder utf16Bytes utf16Units)

/-- The bytes of a text and the zero that ends it. -/
def zeroEndedBytes (s : String) : Bytes := Text.utf8Bytes s ++ [0]

lemma zeroEnded_zeroEndedBytes {s : String} (h : '\x00' ∉ s.toList) :
    zeroEnded (zeroEndedBytes s) = s := by
  have hzero : ∀ b ∈ Text.utf8Bytes s, (b != 0) = true := by
    intro b hb
    rw [bne_iff_ne]
    rintro rfl
    exact Text.zero_notMem_utf8Bytes h hb
  rw [zeroEnded, zeroEndedBytes, List.takeWhile_append_of_pos hzero,
    List.takeWhile_cons_of_neg (by simp), List.append_nil, Text.utf8OrLatin1_utf8Bytes]

/-- Of a text without NUL only the blanks at its ends are lost. -/
lemma tidyText?_eq {s : String} (h : '\x00' ∉ s.toList) : tidyText? s = Text.nonBlank? s := by
  have hdrop : Text.dropEndWhile (· == '\x00') s.toList = s.toList := by
    have hself : s.toList.reverse.dropWhile (· == '\x00') = s.toList.reverse := by
      rw [List.dropWhile_eq_self_iff]
      intro hpos hzero
      refine h (List.mem_reverse.mp ?_)
      rw [← eq_of_beq hzero]
      exact List.getElem_mem hpos
    rw [Text.dropEndWhile, hself, List.reverse_reverse]
  rw [tidyText?, hdrop, String.ofList_toList]

/-- The mark that tells a byte order in UTF-16. -/
def byteOrderMark : ByteOrder → Bytes
  | .little => [0xFF, 0xFE]
  | .big => [0xFE, 0xFF]

/-- The three ways to write a comment: in UTF-8, and in UTF-16 with or without a mark. -/
inductive Comment where
  | ascii (s : String)
  | marked (order : ByteOrder) (s : String)
  | unmarked (order : ByteOrder) (s : String)

namespace Comment

def text : Comment → String
  | ascii s => s
  | marked _ s => s
  | unmarked _ s => s

/-- The name of the character set in eight bytes, and the text. -/
def bytes : Comment → Bytes
  | ascii s => Text.utf8Bytes "ASCII\x00\x00\x00" ++ Text.utf8Bytes s
  | marked order s => Text.utf8Bytes "UNICODE\x00" ++ (byteOrderMark order ++ utf16Bytes order s)
  | unmarked order s => Text.utf8Bytes "UNICODE\x00" ++ utf16Bytes order s

/-- Whether a comment can be read: it holds no NUL, and without a mark it is a text in the first
256 characters that is not empty. -/
def Readable : Comment → Prop
  | ascii s => '\x00' ∉ s.toList
  | marked _ s => '\x00' ∉ s.toList
  | unmarked _ s => '\x00' ∉ s.toList ∧ s ≠ "" ∧ ∀ c ∈ s.toList, c.toNat ≤ 0xFF

end Comment

section Latin

variable {order : ByteOrder} {units : List Nat}

lemma take_flatMap_bytes (n : Nat) :
    (units.flatMap (order.bytes 2)).take (2 * n) = (units.take n).flatMap (order.bytes 2) := by
  induction units generalizing n with
  | nil => simp
  | cons u units ih =>
    cases n with
    | zero => rfl
    | succ n =>
      rw [List.flatMap_cons, List.take_succ_cons, List.flatMap_cons, Nat.mul_succ, Nat.add_comm]
      rw [List.take_append, order.length_bytes, Nat.add_sub_cancel_left, ih,
        List.take_of_length_le (by simp)]

lemma highByte_eq_zero {u : Nat} (h : u < 256) : UInt8.ofNat (u / 256) = 0 := by
  rw [Nat.div_eq_of_lt h]
  rfl

/-- The bytes of a small number in one order are those of a large one in the other. -/
lemma little_bytes_eq_big_bytes {u : Nat} (h : u < 256) :
    ByteOrder.little.bytes 2 u = ByteOrder.big.bytes 2 (u * 256) := by
  have hlow : UInt8.ofNat (u * 256) = 0 := by
    rw [← UInt8.toNat_inj, UInt8.toNat_ofNat']
    simp
  have hhigh := highByte_eq_zero h
  have hdiv : u * 256 / 256 = u := Nat.mul_div_cancel u (by decide)
  simp [ByteOrder.bytes, Text.lowFirst, hlow, hhigh, hdiv]

/-- The order of units that are written in the big one, by the zero bytes of the first 64. -/
lemma utf16Order?_flatMap_big (h : ∀ u ∈ units, u < 0x10000) :
    utf16Order? (units.flatMap (ByteOrder.big.bytes 2)) =
      let highZeros := ((units.take 64).filter (· < 256)).length
      let lowZeros := ((units.take 64).filter (· % 256 == 0)).length
      if highZeros > lowZeros then some .big
      else if highZeros < lowZeros then some .little
      else none := by
  have hunits : Text.units16 .big ((units.take 64).flatMap (ByteOrder.big.bytes 2)) =
      units.take 64 :=
    Text.units16_flatMap .big fun u hu => h u (List.mem_of_mem_take hu)
  rw [utf16Order?, show 128 = 2 * 64 from rfl, take_flatMap_bytes, hunits]

/-- In Latin text the zero bytes stand all on one side. -/
lemma utf16Order?_of_latin (hne : units ≠ []) (hlatin : ∀ u ∈ units, 0 < u ∧ u < 256) :
    utf16Order? (units.flatMap (order.bytes 2)) = some order := by
  have hpos : 0 < (units.take 64).length := by
    have hlength := List.length_pos_iff.mpr hne
    rw [List.length_take]
    omega
  have htake : ∀ u ∈ units.take 64, 0 < u ∧ u < 256 := fun u hu =>
    hlatin u (List.mem_of_mem_take hu)
  cases order with
  | big =>
    have hhigh : (units.take 64).filter (· < 256) = units.take 64 :=
      List.filter_eq_self.mpr fun u hu => decide_eq_true (htake u hu).2
    have hlow : (units.take 64).filter (· % 256 == 0) = [] :=
      List.filter_eq_nil_iff.mpr fun u hu => by
        have := htake u hu
        simp only [beq_iff_eq]
        omega
    rw [utf16Order?_flatMap_big fun u hu => Nat.lt_trans (hlatin u hu).2 (by decide)]
    simp only [hhigh, hlow, List.length_nil, gt_iff_lt, hpos, if_true]
  | little =>
    have hbytes : units.flatMap (ByteOrder.little.bytes 2) =
        (units.map (· * 256)).flatMap (ByteOrder.big.bytes 2) := by
      rw [List.flatMap_map]
      exact List.flatMap_congr fun u hu => little_bytes_eq_big_bytes (hlatin u hu).2
    have hlt : ∀ n ∈ units.map (· * 256), n < 0x10000 := by
      intro n hn
      obtain ⟨u, hu, rfl⟩ := List.mem_map.mp hn
      have := (hlatin u hu).2
      omega
    have hhigh : ((units.take 64).map (· * 256)).filter (· < 256) = [] := by
      refine List.filter_eq_nil_iff.mpr fun n hn => ?_
      obtain ⟨u, hu, rfl⟩ := List.mem_map.mp hn
      have := (htake u hu).1
      simp only [decide_eq_true_eq]
      omega
    have hlow : ((units.take 64).map (· * 256)).filter (· % 256 == 0) =
        (units.take 64).map (· * 256) := by
      refine List.filter_eq_self.mpr fun n hn => ?_
      obtain ⟨u, -, rfl⟩ := List.mem_map.mp hn
      simp
    rw [hbytes, utf16Order?_flatMap_big hlt, ← List.map_take]
    simp only [hhigh, hlow, List.length_nil, List.length_map, gt_iff_lt, Nat.not_lt_zero, hpos,
      if_true, if_false]

end Latin

lemma utf16Comment_marked (order blockOrder : ByteOrder) {s : String}
    (h : '\x00' ∉ s.toList) :
    utf16Comment blockOrder (byteOrderMark order ++ utf16Bytes order s) = s := by
  have hread := Text.utf16Text_utf16Bytes order h
  cases order with
  | little => exact hread
  | big => exact hread

/-- One of the two bytes of a small number is zero. -/
lemma eq_zero_or_eq_zero_of_bytes {order : ByteOrder} {u : Nat} {a b : UInt8} (hu : u < 256)
    (h : order.bytes 2 u = [a, b]) : a = 0 ∨ b = 0 := by
  have hhigh := highByte_eq_zero hu
  cases order with
  | little =>
    simp only [ByteOrder.bytes, Text.lowFirst, hhigh, List.cons.injEq, and_true] at h
    exact Or.inr h.2.symm
  | big =>
    simp only [ByteOrder.bytes, Text.lowFirst, hhigh, List.reverse_cons, List.reverse_nil,
      List.nil_append, List.cons_append, List.cons.injEq, and_true] at h
    exact Or.inl h.1.symm

/-- The units of a text in the first 256 characters are its characters. -/
lemma flatMap_utf16Units_of_latin {s : List Char} (h : ∀ c ∈ s, c.toNat ≤ 0xFF) :
    s.flatMap utf16Units = s.map Char.toNat := by
  rw [List.map_eq_flatMap]
  refine List.flatMap_congr fun c hc => ?_
  have hlow : c.toNat < 0x10000 := by
    have := h c hc
    omega
  rw [utf16Units, if_pos hlow]

/-- Without a mark the byte order is told by the zero bytes, whatever that of the block is. -/
lemma utf16Comment_unmarked (order blockOrder : ByteOrder) {s : String} (h : '\x00' ∉ s.toList)
    (hne : s ≠ "") (hlatin : ∀ c ∈ s.toList, c.toNat ≤ 0xFF) :
    utf16Comment blockOrder (utf16Bytes order s) = s := by
  have hunits : ∀ u ∈ s.toList.map Char.toNat, 0 < u ∧ u < 256 := by
    intro u hu
    obtain ⟨c, hc, rfl⟩ := List.mem_map.mp hu
    have hpos := Text.toNat_ne_zero (ne_of_mem_of_not_mem hc h)
    have := hlatin c hc
    omega
  have hnil : s.toList.map Char.toNat ≠ [] := by simpa using hne
  have hbytes : utf16Bytes order s = (s.toList.map Char.toNat).flatMap (order.bytes 2) := by
    rw [utf16Bytes, flatMap_utf16Units_of_latin hlatin]
  have horder : utf16Order? (utf16Bytes order s) = some order := by
    rw [hbytes]
    exact utf16Order?_of_latin hnil hunits
  -- so the bytes do not begin with a mark
  have hzero : ∀ a b text, utf16Bytes order s = a :: b :: text → a = 0 ∨ b = 0 := by
    intro a b text heq
    obtain ⟨u, units, hcons⟩ := List.exists_cons_of_ne_nil hnil
    rw [hbytes, hcons, List.flatMap_cons] at heq
    have hpair : order.bytes 2 u = [a, b] := List.append_inj_left heq (order.length_bytes 2 u)
    exact eq_zero_or_eq_zero_of_bytes (hunits u (hcons ▸ List.mem_cons_self)).2 hpair
  unfold utf16Comment
  split
  next heq => exact absurd (hzero _ _ _ heq) (by decide)
  next heq => exact absurd (hzero _ _ _ heq) (by decide)
  next => rw [horder, Option.getD_some, Text.utf16Text_utf16Bytes order h]

/-- The character set decides how the text behind it is read. -/
lemma userComment?_append (order : ByteOrder) {charset : Bytes} (h : charset.length = 8)
    (text : Bytes) : userComment? order (charset ++ text) =
      if unicodeMark.isPrefixOf charset then some (utf16Comment order text)
      else some (Text.utf8Lossy text) := by
  have hlength : ¬ (charset ++ text).length < 8 := by
    rw [List.length_append]
    omega
  have hmark : unicodeMark.isPrefixOf (charset ++ text) = unicodeMark.isPrefixOf charset := by
    have hle : unicodeMark.length ≤ charset.length := h ▸ by decide +kernel
    rw [Bool.eq_iff_iff, List.isPrefixOf_iff_prefix, List.isPrefixOf_iff_prefix,
      List.isPrefix_append_of_length hle]
  rw [userComment?, if_neg hlength, hmark, List.drop_left' h]

/-- A comment is read back, in a block of either byte order. -/
theorem userComment?_bytes (order : ByteOrder) {comment : Comment} (h : comment.Readable) :
    userComment? order comment.bytes = some comment.text := by
  have hunicode : ∀ text, userComment? order (Text.utf8Bytes "UNICODE\x00" ++ text) =
      some (utf16Comment order text) := by
    intro text
    rw [userComment?_append order (by decide +kernel), if_pos (by decide +kernel)]
  cases comment with
  | ascii s =>
    rw [Comment.bytes, userComment?_append order (by decide +kernel), if_neg (by decide +kernel),
      Text.utf8Lossy_utf8Bytes, Comment.text]
  | marked textOrder s =>
    rw [Comment.bytes, hunicode, utf16Comment_marked textOrder order h, Comment.text]
  | unmarked textOrder s =>
    obtain ⟨hnul, hne, hlatin⟩ := h
    rw [Comment.bytes, hunicode, utf16Comment_unmarked textOrder order hnul hne hlatin,
      Comment.text]

end ImageRecipe.Exif
