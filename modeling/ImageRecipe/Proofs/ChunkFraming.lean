import ImageRecipe.Image.Png
import Mathlib.Algebra.Group.Nat.Defs
import Mathlib.Tactic.Common

/-!
# Chunks and the bytes that write them

A chunk is written as the length of its data, its type, the data and the
checksum. What is read off the front of some bytes is the chunk that was written
there, and nothing is read where no chunk is all there. So reading a file undoes
writing it, chunk by chunk, up to the end chunk.
-/
namespace ImageRecipe.Png

/-- The four bytes that write a number, highest first. -/
def wordBytes (n : UInt32) : Bytes :=
  [UInt8.ofNat (n.toNat / 2 ^ 24), UInt8.ofNat (n.toNat / 2 ^ 16), UInt8.ofNat (n.toNat / 2 ^ 8),
    UInt8.ofNat n.toNat]

@[simp] lemma length_wordBytes (n : UInt32) : (wordBytes n).length = 4 := rfl

lemma toNat_word (a b c d : UInt8) : (word [a, b, c, d]).toNat =
    a.toNat * 2 ^ 24 + b.toNat * 2 ^ 16 + c.toNat * 2 ^ 8 + d.toNat := by
  have ha := a.toNat_lt
  have hb := b.toNat_lt
  have hc := c.toNat_lt
  have hd := d.toNat_lt
  simp only [word, Text.ByteOrder.number, List.foldl, UInt32.toNat_ofNat']
  omega

@[simp] lemma word_wordBytes (n : UInt32) : word (wordBytes n) = n := by
  have hn := n.toNat_lt
  rw [← UInt32.toNat_inj, wordBytes, toNat_word]
  simp only [UInt8.toNat_ofNat']
  omega

lemma wordBytes_word {bytes : Bytes} (h : bytes.length = 4) : wordBytes (word bytes) = bytes := by
  match bytes, h with
  | [a, b, c, d], _ =>
    have ha := a.toNat_lt
    have hb := b.toNat_lt
    have hc := c.toNat_lt
    have hd := d.toNat_lt
    simp only [wordBytes, toNat_word, List.cons.injEq, ← UInt8.toNat_inj, UInt8.toNat_ofNat',
      and_true]
    omega

namespace Chunk

/-- The bytes that write a chunk. -/
def bytes (chunk : Chunk) : Bytes :=
  wordBytes (UInt32.ofNat chunk.data.length) ++ chunk.type.bytes ++ chunk.data ++
    wordBytes chunk.checksum

/-- Whether the length of the data can be written. -/
def Fits (chunk : Chunk) : Prop := chunk.data.length < 2 ^ 32

instance (chunk : Chunk) : Decidable chunk.Fits := inferInstanceAs (Decidable (_ < _))

lemma bytes_append (chunk : Chunk) (rest : Bytes) : chunk.bytes ++ rest =
    wordBytes (UInt32.ofNat chunk.data.length) ++ (chunk.type.bytes ++
      (chunk.data ++ (wordBytes chunk.checksum ++ rest))) := by
  simp only [bytes, List.append_assoc]

/-- How a chunk goes on behind its length and its type. -/
lemma ofFront?_append (n : UInt32) (type : ChunkType) (rest : Bytes) :
    ofFront? (wordBytes n ++ (type.bytes ++ rest)) =
      if n.toNat + 4 ≤ rest.length then
        some (⟨type, rest.take n.toNat, word ((rest.drop n.toNat).take 4)⟩,
          (rest.drop n.toNat).drop 4)
      else none := by
  have hword := word_wordBytes n
  rw [wordBytes] at hword
  simp only [wordBytes, ChunkType.bytes, List.cons_append, List.nil_append, ofFront?, hword]

/-- A chunk is read off the bytes that write it, whatever follows. -/
lemma ofFront?_bytes {chunk : Chunk} (h : chunk.Fits) (rest : Bytes) :
    ofFront? (chunk.bytes ++ rest) = some (chunk, rest) := by
  have hlength : (UInt32.ofNat chunk.data.length).toNat = chunk.data.length := by
    rw [UInt32.toNat_ofNat', Nat.mod_eq_of_lt h]
  have hall : chunk.data.length + 4 ≤
      (chunk.data ++ (wordBytes chunk.checksum ++ rest)).length := by
    simp only [List.length_append, length_wordBytes]
    omega
  have htake : (wordBytes chunk.checksum ++ rest).take 4 = wordBytes chunk.checksum :=
    List.take_left' (length_wordBytes _)
  have hdrop : (wordBytes chunk.checksum ++ rest).drop 4 = rest :=
    List.drop_left' (length_wordBytes _)
  rw [bytes_append, ofFront?_append, hlength, if_pos hall, List.take_left, List.drop_left, htake,
    hdrop, word_wordBytes]

/-- What is read off the front of some bytes was written there. -/
lemma eq_of_ofFront? {bytes rest : Bytes} {chunk : Chunk}
    (h : ofFront? bytes = some (chunk, rest)) :
    chunk.Fits ∧ bytes = chunk.bytes ++ rest := by
  unfold ofFront? at h
  split at h
  · rename_i l₀ l₁ l₂ l₃ t₀ t₁ t₂ t₃ after
    -- of the four bytes of the length only the number that they write is used from here on
    have hword : wordBytes (word [l₀, l₁, l₂, l₃]) = [l₀, l₁, l₂, l₃] := wordBytes_word rfl
    generalize word [l₀, l₁, l₂, l₃] = n at h hword
    dsimp only at h
    split at h
    · rename_i hle
      obtain ⟨rfl, rfl⟩ := Prod.mk.inj (Option.some.inj h)
      have hlength : (after.take n.toNat).length = n.toNat := List.length_take_of_le (by omega)
      have hchecksum : ((after.drop n.toNat).take 4).length = 4 := by
        rw [List.length_take, List.length_drop]
        omega
      have hfits : (after.take n.toNat).length < 2 ^ 32 := by
        rw [hlength]
        exact n.toNat_lt
      refine ⟨hfits, ?_⟩
      rw [bytes_append]
      dsimp only
      rw [hlength, UInt32.ofNat_toNat, hword, wordBytes_word hchecksum, List.take_append_drop,
        List.take_append_drop]
      rfl
    · cases h
  · cases h

theorem ofFront?_eq_some_iff {bytes rest : Bytes} {chunk : Chunk} :
    ofFront? bytes = some (chunk, rest) ↔ chunk.Fits ∧ bytes = chunk.bytes ++ rest := by
  constructor
  · exact eq_of_ofFront?
  · rintro ⟨hfits, rfl⟩
    exact ofFront?_bytes hfits rest

/-- Nothing is read exactly where no chunk is all there. -/
theorem ofFront?_eq_none_iff {bytes : Bytes} :
    ofFront? bytes = none ↔ ∀ chunk : Chunk, chunk.Fits → ¬ chunk.bytes <+: bytes := by
  constructor
  · rintro h chunk hfits ⟨rest, rfl⟩
    rw [ofFront?_bytes hfits] at h
    cases h
  · intro h
    cases hread : ofFront? bytes with
    | none => rfl
    | some found =>
      obtain ⟨hfits, heq⟩ := ofFront?_eq_some_iff.mp hread
      exact absurd ⟨found.2, heq.symm⟩ (h found.1 hfits)

end Chunk

section Walk

variable {bytes rest : Bytes} {chunk : Chunk} {chunks : List Chunk}

lemma chunksFrom_of_none (h : Chunk.ofFront? bytes = none) : chunksFrom bytes = [] := by
  rw [chunksFrom]
  split
  · rfl
  · rename_i heq
    rw [h] at heq
    cases heq

lemma chunksFrom_bytes (h : chunk.Fits) : chunksFrom (chunk.bytes ++ rest) =
    if chunk.type = .ending then [chunk] else chunk :: chunksFrom rest := by
  rw [chunksFrom]
  split
  · rename_i heq
    rw [Chunk.ofFront?_bytes h] at heq
    cases heq
  · rename_i heq
    rw [Chunk.ofFront?_bytes h] at heq
    cases heq
    rfl

/-- Chunks that can stand one after the other in a file: none but the last is an end chunk. -/
@[mk_iff]
structure Writable (chunks : List Chunk) : Prop where
  fits : ∀ chunk ∈ chunks, chunk.Fits
  ending : ∀ chunk ∈ chunks.dropLast, chunk.type ≠ .ending

/-- Whether the last of some chunks is an end chunk. -/
def Ends (chunks : List Chunk) : Prop := ∃ chunk ∈ chunks.getLast?, chunk.type = .ending

instance (chunks : List Chunk) : Decidable (Writable chunks) :=
  decidable_of_iff _ (writable_iff chunks).symm

instance (chunks : List Chunk) : Decidable (Ends chunks) :=
  decidable_of_iff (chunks.getLast?.any fun chunk => chunk.type = .ending)
    (by simp [Ends, Option.any_eq_true])

lemma writable_nil : Writable [] := ⟨nofun, nofun⟩

lemma writable_cons_iff : Writable (chunk :: chunks) ↔
    chunk.Fits ∧ (chunk.type = .ending → chunks = []) ∧ Writable chunks := by
  cases chunks with
  | nil => simp [writable_iff]
  | cons next chunks =>
    simp only [writable_iff, List.forall_mem_cons, List.dropLast_cons_cons, List.cons_ne_nil,
      imp_false]
    tauto

lemma ends_cons_iff : Ends (chunk :: chunks) ↔
    chunks = [] ∧ chunk.type = .ending ∨ Ends chunks := by
  cases chunks with
  | nil => simp [Ends]
  | cons next chunks => simp [Ends]

/-- Writable chunks are read back, unless something that follows them is read as a chunk too. -/
theorem chunksFrom_flatMap_bytes (h : Writable chunks)
    (hrest : Ends chunks ∨ Chunk.ofFront? rest = none) :
    chunksFrom (chunks.flatMap Chunk.bytes ++ rest) = chunks := by
  induction chunks with
  | nil =>
    rcases hrest with ⟨_, hmem, -⟩ | hrest
    · cases hmem
    · exact chunksFrom_of_none hrest
  | cons chunk chunks ih =>
    obtain ⟨hfits, hending, hchunks⟩ := writable_cons_iff.mp h
    rw [List.flatMap_cons, List.append_assoc, chunksFrom_bytes hfits]
    by_cases htype : chunk.type = .ending
    · -- it is the last one, and what follows it is not read
      rw [if_pos htype, hending htype]
    · rw [if_neg htype, ih hchunks]
      exact hrest.imp_left fun hends =>
        (ends_cons_iff.mp hends).resolve_left fun hlast => htype hlast.2

/-- Whatever the bytes, the chunks read off them stand at their front, and reading stops behind an
end chunk or where no chunk is all there. -/
theorem exists_rest_chunksFrom (bytes : Bytes) :
    ∃ rest, bytes = (chunksFrom bytes).flatMap Chunk.bytes ++ rest ∧
      Writable (chunksFrom bytes) ∧
      (Ends (chunksFrom bytes) ∨ Chunk.ofFront? rest = none) := by
  fun_induction chunksFrom bytes with
  | case1 bytes hread => exact ⟨bytes, rfl, writable_nil, Or.inr hread⟩
  | case2 bytes chunk rest hread htype =>
    obtain ⟨hfits, rfl⟩ := Chunk.eq_of_ofFront? hread
    refine ⟨rest, by rw [List.flatMap_singleton], ?_, Or.inl ?_⟩
    · exact writable_cons_iff.mpr ⟨hfits, fun _ => rfl, writable_nil⟩
    · exact ends_cons_iff.mpr (Or.inl ⟨rfl, htype⟩)
  | case3 bytes chunk rest hread htype ih =>
    obtain ⟨hfits, rfl⟩ := Chunk.eq_of_ofFront? hread
    obtain ⟨last, hlast, hwritable, hstop⟩ := ih
    refine ⟨last, ?_, writable_cons_iff.mpr ⟨hfits, fun h => absurd h htype, hwritable⟩, ?_⟩
    · rw [List.flatMap_cons, List.append_assoc, ← hlast]
    · exact hstop.imp_left fun hends => ends_cons_iff.mpr (Or.inr hends)

end Walk

/-- The signature and the bytes of some chunks. -/
def fileOf (chunks : List Chunk) : Bytes := ImageKind.pngSignature ++ chunks.flatMap Chunk.bytes

lemma chunks_signature_append (bytes : Bytes) :
    chunks (ImageKind.pngSignature ++ bytes) = chunksFrom bytes := by
  have hprefix : ImageKind.pngSignature.isPrefixOf (ImageKind.pngSignature ++ bytes) = true :=
    List.isPrefixOf_iff_prefix.mpr (List.prefix_append _ _)
  rw [chunks, if_pos hprefix, List.drop_left]

/-- What is written is read back, behind an end chunk whatever follows it. -/
lemma chunks_fileOf_append {written : List Chunk} {rest : Bytes} (h : Writable written)
    (hrest : rest = [] ∨ Ends written) : chunks (fileOf written ++ rest) = written := by
  rw [fileOf, List.append_assoc, chunks_signature_append]
  refine chunksFrom_flatMap_bytes h ?_
  rcases hrest with rfl | hends
  · exact Or.inr rfl
  · exact Or.inl hends

lemma chunks_of_not_prefix {file : Bytes} (h : ¬ ImageKind.pngSignature <+: file) :
    chunks file = [] := by
  rw [chunks, if_neg (mt List.isPrefixOf_iff_prefix.mp h)]

/-- Reading a file and writing chunks undo each other. The chunks that are read off a file with the
signature make up its front, in an order in which they can be written, and what follows them stands
behind an end chunk or begins with no chunk that is all there. Chunks that can be written are read
back, behind an end chunk whatever follows it. A file without the signature has no chunks. -/
theorem chunks_undoes_framing :
    (∀ file, ImageKind.pngSignature <+: file →
      ∃ rest, file = fileOf (chunks file) ++ rest ∧ Writable (chunks file) ∧
        (Ends (chunks file) ∨ ∀ chunk : Chunk, chunk.Fits → ¬ chunk.bytes <+: rest)) ∧
    (∀ (written : List Chunk) (rest : Bytes), Writable written → rest = [] ∨ Ends written →
      chunks (fileOf written ++ rest) = written) ∧
    ∀ file, ¬ ImageKind.pngSignature <+: file → chunks file = [] := by
  refine ⟨?_, fun written rest => chunks_fileOf_append, fun file => chunks_of_not_prefix⟩
  rintro _ ⟨bytes, rfl⟩
  obtain ⟨rest, hrest, hwritable, hstop⟩ := exists_rest_chunksFrom bytes
  rw [chunks_signature_append]
  refine ⟨rest, ?_, hwritable, hstop.imp_right Chunk.ofFront?_eq_none_iff.mp⟩
  rw [fileOf, List.append_assoc, ← hrest]

/-- A text and the end chunk, the text with a checksum that is wrong. -/
def textAndEnd : List Chunk := [⟨.text, [0x61, 0, 0x62], 7⟩, ⟨.ending, [], 0xAE426082⟩]

theorem chunks_undoes_framing_textAndEnd :
    Writable textAndEnd ∧ Ends textAndEnd ∧
      chunks (fileOf textAndEnd ++ [0xFF, 0xD8]) = textAndEnd ∧
      ∃ rest, fileOf textAndEnd ++ [0xFF, 0xD8] = fileOf textAndEnd ++ rest ∧
        Writable textAndEnd ∧
        (Ends textAndEnd ∨ ∀ chunk : Chunk, chunk.Fits → ¬ chunk.bytes <+: rest) := by
  obtain ⟨hread, hwrite, -⟩ := chunks_undoes_framing
  have hwritable : Writable textAndEnd := by decide
  have hends : Ends textAndEnd := by decide
  have hchunks := hwrite textAndEnd [0xFF, 0xD8] hwritable (Or.inr hends)
  have hfront := hread (fileOf textAndEnd ++ [0xFF, 0xD8]) (by decide)
  rw [hchunks] at hfront
  exact ⟨hwritable, hends, hchunks, hfront⟩

end ImageRecipe.Png
