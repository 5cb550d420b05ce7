import ImageRecipe.Proofs.Base64RoundTrip
import ImageRecipe.Proofs.LenientJson
import ImageRecipe.Proofs.Utf8RoundTrip
import Mathlib.Algebra.Group.Nat.Defs

/-!
# Taking off the layers of a payload

The layers are tried from the outermost: text as it is, base64, and base64 of
a zlib stream. None of them is mistaken for one that is tried before it. Base64
has no character with which an object, an array or a string begins, and a zlib
stream begins with a byte that begins no such JSON text either.
-/
namespace ImageRecipe

namespace BitReader

lemma bit_front {k : Nat} (hk : k < 8) (b : UInt8) (rest : Bytes) :
    bit.run ⟨(b :: rest).toArray, k⟩ =
      some (b.toNat / 2 ^ k % 2, ⟨(b :: rest).toArray, k + 1⟩) := by
  have hindex : k / 8 = 0 := Nat.div_eq_of_lt hk
  simp [StateT.run, bit, hindex, Nat.mod_eq_of_lt hk, Nat.shiftRight_eq_div_pow]

/-- The bits of the first byte, read from its `k`-th bit on. -/
lemma number_front {n k : Nat} (hk : k + n ≤ 8) (b : UInt8) (rest : Bytes) :
    (number n).run ⟨(b :: rest).toArray, k⟩ =
      some (b.toNat / 2 ^ k % 2 ^ n, ⟨(b :: rest).toArray, k + n⟩) := by
  induction n generalizing k with
  | zero =>
    rw [Nat.pow_zero, Nat.mod_one]
    rfl
  | succ n ih =>
    have hbit := bit_front (show k < 8 by omega) b rest
    have hnumber := ih (show k + 1 + n ≤ 8 by omega)
    have hvalue : b.toNat / 2 ^ k % 2 + 2 * (b.toNat / 2 ^ (k + 1) % 2 ^ n) =
        b.toNat / 2 ^ k % 2 ^ (n + 1) := by
      rw [show 2 ^ (n + 1) = 2 * 2 ^ n from Nat.pow_succ', Nat.mod_mul, Nat.div_div_eq_div_mul,
        Nat.pow_succ]
    simp only [number, StateT.run_bind, hbit, hnumber, Option.bind_eq_bind, Option.bind_some,
      StateT.run_pure, Option.pure_def, hvalue]
    rw [Nat.add_assoc, Nat.add_comm 1 n]

lemma byte_front (b : UInt8) (rest : Bytes) :
    byte.run ⟨(b :: rest).toArray, 0⟩ = some (b, ⟨(b :: rest).toArray, 8⟩) := by
  have hnumber := number_front (show 0 + 8 ≤ 8 by omega) b rest
  have hvalue : b.toNat / 2 ^ 0 % 2 ^ 8 = b.toNat := by
    have := b.toNat_lt
    omega
  rw [hvalue] at hnumber
  simp only [byte, StateT.run_bind, hnumber, Option.bind_eq_bind, Option.bind_some,
    StateT.run_pure, Option.pure_def, UInt8.ofNat_toNat]

end BitReader

namespace Zlib

/-- The first byte of a stream names the method and the window. -/
lemma exists_method_of_inflate {z out : Bytes} (h : inflate z = .ok out) :
    ∃ method rest, z = method :: rest ∧ method.toNat % 16 = 8 ∧ method.toNat / 16 ≤ 7 := by
  have hsome : ∃ p, content.run ⟨z.toArray, 0⟩ = some p := by
    unfold inflate at h
    split at h
    · cases h
    · cases h
    · exact ⟨_, ‹_›⟩
  obtain ⟨p, hcontent⟩ := hsome
  unfold content at hcontent
  rw [StateT.run_bind] at hcontent
  obtain ⟨⟨method, source₁⟩, hmethod, hrest⟩ := Option.bind_eq_some_iff.mp hcontent
  rw [StateT.run_bind] at hrest
  obtain ⟨⟨flags, source₂⟩, -, hchecked⟩ := Option.bind_eq_some_iff.mp hrest
  have hheader : isHeader method flags = true := by
    by_contra hnot
    rw [Bool.not_eq_true] at hnot
    simp [hnot] at hchecked
  simp only [isHeader, Bool.and_eq_true, beq_iff_eq, decide_eq_true_eq] at hheader
  cases z with
  | nil => cases hmethod
  | cons b rest =>
    rw [BitReader.byte_front] at hmethod
    obtain ⟨rfl, -⟩ := Prod.mk.inj (Option.some.inj hmethod)
    exact ⟨b, rest, rfl, hheader.1.1.1, hheader.1.1.2⟩

end Zlib

namespace Payload

/-- A zlib stream is no text that holds an object or an array. -/
lemma containerIn?_eq_none_of_inflate {z out : Bytes} (h : Zlib.inflate z = .ok out) :
    containerIn? z = none := by
  obtain ⟨method, rest, rfl, hmethod, hwindow⟩ := Zlib.exists_method_of_inflate h
  unfold containerIn?
  cases htext : Text.utf8? (method :: rest) with
  | none => rfl
  | some text =>
    obtain ⟨chars, hchars⟩ := Text.exists_cons_of_utf8? (by omega) htext
    have hmem : method.toNat ∈ [0x08, 0x18, 0x28, 0x38, 0x48, 0x58, 0x68, 0x78] := by
      simp only [List.mem_cons, List.not_mem_nil, or_false]
      omega
    have hfirst : ∀ n ∈ [0x08, 0x18, 0x28, 0x38, 0x48, 0x58, 0x68, 0x78],
        ¬ IsOpener (Char.ofNat n) ∧ Json.isSpace (Char.ofNat n) = false ∧
          Char.ofNat n ≠ '-' ∧ Char.ofNat n ≠ 'N' ∧ Char.ofNat n ≠ 'I' := by
      unfold IsOpener
      decide
    obtain ⟨hopener, hspace, hminus, hn, hi⟩ := hfirst _ hmem
    rw [Option.bind_some, hchars, container?_cons_eq_none hopener hspace hminus hn hi]

lemma containerIn?_utf8Bytes {t : String} {x : Json} (h : container? t.toList = some x) :
    containerIn? (Text.utf8Bytes t) = some x := by
  rw [containerIn?, Text.utf8?_utf8Bytes, Option.bind_some, h]

lemma container?_nil : container? [] = none :=
  container?_eq_none_of_forall (by simp)

/-- A text that holds an object or an array is taken as it is, less the blanks at its ends. -/
lemma ofText?_of_container? {s : String} {x : Json}
    (h : container? (Text.trim s.toList) = some x) :
    ofText? s = some ⟨x, Text.utf8Bytes (Text.trimmed s), .plain⟩ := by
  have hne : (Text.trim s.toList).isEmpty = false := by
    rw [List.isEmpty_eq_false_iff]
    intro hnil
    rw [hnil, container?_nil] at h
    cases h
  simp only [ofText?, hne, h, Bool.false_eq_true, if_false, Text.trimmed]

lemma not_isOpener_of_mem_encode {bytes : Bytes} {c : Char} (hc : c ∈ Base64.encode bytes) :
    ¬ IsOpener c := by
  have hdigits : ∀ n < 64, ¬ IsOpener (Base64.digit n) := by
    unfold IsOpener
    decide +kernel
  rcases Base64.exists_digit_of_mem_encode hc with rfl | ⟨n, hn, rfl⟩
  · unfold IsOpener
    decide
  · exact hdigits n hn

/-- Trimming takes off nothing but blanks. -/
lemma filter_trim {s : List Char} (hs : ∃ c ∈ s, Text.isBlank c = false) :
    ((Text.trim s).filter fun c => !Text.isBlank c) = s.filter fun c => !Text.isBlank c := by
  have hblanks : ∀ {t : List Char}, (∀ c ∈ t, Text.isBlank c = true) →
      (t.filter fun c => !Text.isBlank c) = [] := by
    intro t ht
    rw [List.filter_eq_nil_iff]
    exact fun c hc => by simp [ht c hc]
  obtain ⟨before, after, hsplit, hbefore, hafter, -, -⟩ := Text.exists_blanks_around_trim hs
  conv_rhs => rw [hsplit]
  rw [List.filter_append, List.filter_append, hblanks hbefore, hblanks hafter, List.nil_append,
    List.append_nil]

/-- Base64 holds no object and no array as it is, so it is decoded. -/
lemma ofText?_of_base64 {s : String} {bytes : Bytes} (hbytes : bytes ≠ [])
    (hs : (s.toList.filter fun c => !Text.isBlank c) = Base64.encode bytes) :
    ofText? s = ofDecoded? bytes := by
  have hvisible : ∃ c ∈ s.toList, Text.isBlank c = false := by
    obtain ⟨c, hc⟩ := List.exists_mem_of_length_pos
      (Nat.lt_of_lt_of_le (by decide) (Base64.four_le_length_encode hbytes))
    rw [← hs] at hc
    exact ⟨c, List.mem_of_mem_filter hc, by simpa using List.of_mem_filter hc⟩
  obtain ⟨-, -, -, -, -, -, hends⟩ := Text.exists_blanks_around_trim hvisible
  have hne : (Text.trim s.toList).isEmpty = false := List.isEmpty_eq_false_iff.mpr hends.ne_nil
  rw [← filter_trim hvisible] at hs
  have hopener : ∀ c ∈ Text.trim s.toList, ¬ IsOpener c := by
    intro c hc
    cases hblank : Text.isBlank c with
    | true => rintro (rfl | rfl | rfl) <;> cases hblank
    | false =>
      have hmem : c ∈ Base64.encode bytes := by
        rw [← hs]
        exact List.mem_filter.mpr ⟨hc, by simp [hblank]⟩
      exact not_isOpener_of_mem_encode hmem
  simp only [ofText?, hne, container?_eq_none_of_forall hopener, Base64.decode?_of_filter hbytes hs,
    Bool.false_eq_true, if_false, Option.bind_some]

/-- The bytes of a payload are the text of its JSON. -/
lemma containerIn?_of_ofText? {s : String} {p : Payload} (h : ofText? s = some p) :
    containerIn? p.bytes = some p.json := by
  simp only [ofText?] at h
  split at h
  · cases h
  · split at h
    · rename_i json hjson
      obtain rfl := Option.some.inj h
      exact containerIn?_utf8Bytes (by rwa [String.toList_ofList])
    · obtain ⟨bytes, -, hdecoded⟩ := Option.bind_eq_some_iff.mp h
      unfold ofDecoded? at hdecoded
      split at hdecoded
      · obtain rfl := Option.some.inj hdecoded
        assumption
      · split at hdecoded
        · obtain ⟨json, hjson, rfl⟩ := Option.map_eq_some_iff.mp hdecoded
          exact hjson
        · cases hdecoded

section Layers

variable {t s : String} {x : Json}

lemma ofText?_between_blanks (ht : Json.parse? t = some x) (hx : x.isContainer = true)
    {before after : String} (hbefore : ∀ c ∈ before.toList, Text.isBlank c = true)
    (hafter : ∀ c ∈ after.toList, Text.isBlank c = true) :
    ofText? (before ++ t ++ after) = some ⟨x, Text.utf8Bytes (Text.trimmed t), .plain⟩ := by
  have htrim : Text.trim (before ++ t ++ after).toList = Text.trim t.toList := by
    rw [String.toList_append, String.toList_append]
    exact Text.trim_append_blanks (exists_visible_of_parseChars? ht) hbefore hafter
  have hcontainer := container?_trim (container?_of_parseChars? ht hx)
  rw [← htrim] at hcontainer
  rw [ofText?_of_container? hcontainer, Text.trimmed, htrim, Text.trimmed]

lemma utf8Bytes_ne_nil_of_parse? (ht : Json.parse? t = some x) : Text.utf8Bytes t ≠ [] := by
  refine Text.utf8Bytes_ne_nil ?_
  rintro rfl
  obtain ⟨c, hc, -⟩ := exists_visible_of_parseChars? ht
  cases hc

lemma ofText?_base64 (ht : Json.parse? t = some x) (hx : x.isContainer = true)
    (hs : (s.toList.filter fun c => !Text.isBlank c) = Base64.encode (Text.utf8Bytes t)) :
    ofText? s = some ⟨x, Text.utf8Bytes t, .base64⟩ := by
  have hjson := containerIn?_utf8Bytes (container?_of_parseChars? ht hx)
  rw [ofText?_of_base64 (utf8Bytes_ne_nil_of_parse? ht) hs]
  simp only [ofDecoded?, hjson]

lemma ofText?_base64Zlib (ht : Json.parse? t = some x) (hx : x.isContainer = true) {z : Bytes}
    (hz : Zlib.inflate z = .ok (Text.utf8Bytes t))
    (hs : (s.toList.filter fun c => !Text.isBlank c) = Base64.encode z) :
    ofText? s = some ⟨x, Text.utf8Bytes t, .base64Zlib⟩ := by
  have hne : z ≠ [] := by
    obtain ⟨method, rest, rfl, -⟩ := Zlib.exists_method_of_inflate hz
    exact List.cons_ne_nil method rest
  have hjson := containerIn?_utf8Bytes (container?_of_parseChars? ht hx)
  rw [ofText?_of_base64 hne hs]
  simp only [ofDecoded?, containerIn?_eq_none_of_inflate hz, hz, hjson, Option.map_some]

/-- The text of a payload is a payload of its own, without layers. -/
lemma exists_plain_of_ofText? {p : Payload} (h : ofText? s = some p) :
    ∃ text, Text.utf8? p.bytes = some text ∧
      ∃ q, ofText? text = some q ∧ q.json = p.json ∧ q.layers = .plain := by
  obtain ⟨text, htext, hjson⟩ := Option.bind_eq_some_iff.mp (containerIn?_of_ofText? h)
  exact ⟨text, htext, _, ofText?_of_container? (container?_trim hjson), rfl, rfl⟩

end Layers

/-- Every layering of a JSON text comes off again: the text between blanks, its base64 and the
base64 of a zlib stream that holds it give the JSON, the bytes of the text and the layers. The
text of any payload is a payload with the same JSON and no layers. -/
theorem ofText?_undoes_layers :
    (∀ (t : String) (x : Json), Json.parse? t = some x → x.isContainer = true →
      (∀ before after : String, (∀ c ∈ before.toList, Text.isBlank c = true) →
        (∀ c ∈ after.toList, Text.isBlank c = true) →
        ofText? (before ++ t ++ after) = some ⟨x, Text.utf8Bytes (Text.trimmed t), .plain⟩) ∧
      (∀ s : String, (s.toList.filter fun c => !Text.isBlank c) =
          Base64.encode (Text.utf8Bytes t) →
        ofText? s = some ⟨x, Text.utf8Bytes t, .base64⟩) ∧
      ∀ (z : Bytes) (s : String), Zlib.inflate z = .ok (Text.utf8Bytes t) →
        (s.toList.filter fun c => !Text.isBlank c) = Base64.encode z →
        ofText? s = some ⟨x, Text.utf8Bytes t, .base64Zlib⟩) ∧
    ∀ (s : String) (p : Payload), ofText? s = some p → ∃ text, Text.utf8? p.bytes = some text ∧
      ∃ q, ofText? text = some q ∧ q.json = p.json ∧ q.layers = .plain := by
  refine ⟨fun t x ht hx => ⟨?_, ?_, ?_⟩, ?_⟩
  · exact fun before after hbefore hafter => ofText?_between_blanks ht hx hbefore hafter
  · exact fun s hs => ofText?_base64 ht hx hs
  · exact fun z s hz hs => ofText?_base64Zlib ht hx hz hs
  · exact fun s p hp => exists_plain_of_ofText? hp

def seedText : String := "\x7b\"seed\":42\x7d"

/-- The example text as a zlib stream. -/
def seedStream : Bytes :=
  [0x78, 0x9C, 0xAB, 0x56, 0x2A, 0x4E, 0x4D, 0x4D, 0x51, 0xB2, 0x32, 0x31, 0xAA, 0x05, 0x00,
    0x16, 0x05, 0x03, 0x7E]

lemma parse?_seedText : Json.parse? seedText = some (.obj [("seed", .num (.int 42))]) := by
  rfl

lemma utf8Bytes_seedText : Text.utf8Bytes seedText =
    [0x7B, 0x22, 0x73, 0x65, 0x65, 0x64, 0x22, 0x3A, 0x34, 0x32, 0x7D] := by
  rw [Text.utf8Bytes_eq_flatMap]
  decide +kernel

lemma inflate_seedStream : Zlib.inflate seedStream = .ok (Text.utf8Bytes seedText) := by
  have hout : (Zlib.inflate seedStream).toOption =
      some [0x7B, 0x22, 0x73, 0x65, 0x65, 0x64, 0x22, 0x3A, 0x34, 0x32, 0x7D] := by
    decide +kernel
  rw [utf8Bytes_seedText]
  cases hresult : Zlib.inflate seedStream with
  | ok out =>
    rw [hresult] at hout
    rw [Option.some.inj hout]
  | error fault =>
    rw [hresult] at hout
    cases hout

theorem ofText?_seedText_layers :
    ofText? ("\u00A0" ++ seedText ++ "\n") =
        some ⟨.obj [("seed", .num (.int 42))], Text.utf8Bytes (Text.trimmed seedText), .plain⟩ ∧
      ofText? "eyJzZWVk\nIjo0Mn0=" =
        some ⟨.obj [("seed", .num (.int 42))], Text.utf8Bytes seedText, .base64⟩ ∧
      ofText? "eJyrVipOTU1Rsj\nIxqgUAFgUDfg==" =
        some ⟨.obj [("seed", .num (.int 42))], Text.utf8Bytes seedText, .base64Zlib⟩ ∧
      ∃ text, Text.utf8? (Text.utf8Bytes seedText) = some text ∧ ∃ q, ofText? text = some q ∧
        q.json = .obj [("seed", .num (.int 42))] ∧ q.layers = .plain := by
  obtain ⟨hlayers, htext⟩ := ofText?_undoes_layers
  obtain ⟨hblanks, hbase64, hzlib⟩ := hlayers seedText _ parse?_seedText rfl
  have hdecoded := hbase64 "eyJzZWVk\nIjo0Mn0=" (by rw [utf8Bytes_seedText]; decide +kernel)
  refine ⟨hblanks "\u00A0" "\n" (by simp [Text.isBlank]) (by simp [Text.isBlank]), hdecoded, ?_,
    htext _ _ hdecoded⟩
  exact hzlib seedStream "eJyrVipOTU1Rsj\nIxqgUAFgUDfg==" inflate_seedStream (by decide +kernel)

end Payload

end ImageRecipe
