import ImageRecipe.Bytes.Zlib
import ImageRecipe.Image.Chunks
import ImageRecipe.Image.Kind
import ImageRecipe.Image.Tags

/-!
# PNG files

Behind its signature a PNG file is a sequence of chunks: a length, a type of
four bytes, the data and a checksum. Chunks are read up to the end chunk or to
the first chunk that is not all there. Texts stand in chunks of three types,
tags in two more.
-/
namespace ImageRecipe.Png

/-- The four bytes of a chunk type. -/
structure ChunkType where
  first : UInt8
  second : UInt8
  third : UInt8
  fourth : UInt8
  deriving DecidableEq, Repr

namespace ChunkType

def bytes (type : ChunkType) : Bytes := [type.first, type.second, type.third, type.fourth]

/-- IHDR -/
def header : ChunkType := ⟨0x49, 0x48, 0x44, 0x52⟩

/-- IEND -/
def ending : ChunkType := ⟨0x49, 0x45, 0x4E, 0x44⟩

/-- tEXt -/
def text : ChunkType := ⟨0x74, 0x45, 0x58, 0x74⟩

/-- zTXt -/
def compressedText : ChunkType := ⟨0x7A, 0x54, 0x58, 0x74⟩

/-- iTXt -/
def internationalText : ChunkType := ⟨0x69, 0x54, 0x58, 0x74⟩

/-- eXIf -/
def exif : ChunkType := ⟨0x65, 0x58, 0x49, 0x66⟩

/-- caBX -/
def manifest : ChunkType := ⟨0x63, 0x61, 0x42, 0x58⟩

end ChunkType

structure Chunk where
  type : ChunkType
  data : Bytes
  /-- The checksum that was written. -/
  checksum : UInt32
  deriving DecidableEq, Repr

/-- The number that bytes write, highest first. -/
def word (bytes : Bytes) : UInt32 := UInt32.ofNat (Text.ByteOrder.number .big bytes)

namespace Chunk

/-- Whether the checksum is that of the type and the data. -/
def hasValidChecksum (chunk : Chunk) : Bool :=
  Checksum.crc32 (chunk.type.bytes ++ chunk.data) == chunk.checksum

/-- The chunk at the front of some bytes and what follows it. -/
def ofFront? : Bytes → Option (Chunk × Bytes)
  | l₀ :: l₁ :: l₂ :: l₃ :: t₀ :: t₁ :: t₂ :: t₃ :: rest =>
    let length := (word [l₀, l₁, l₂, l₃]).toNat
    let after := rest.drop length
    if length + 4 ≤ rest.length then
      some (⟨⟨t₀, t₁, t₂, t₃⟩, rest.take length, word (after.take 4)⟩, after.drop 4)
    else none
  | _ => none

theorem ofFront?_length_lt {bytes rest : Bytes} {chunk : Chunk}
    (h : ofFront? bytes = some (chunk, rest)) : rest.length < bytes.length := by
  unfold ofFront? at h
  split at h
  · dsimp only at h
    split at h
    · simp only [Option.some.injEq, Prod.mk.injEq] at h
      rw [← h.2]
      simp
      omega
    · simp at h
  · simp at h

end Chunk

/-- The chunks at the front of some bytes, up to the end chunk. -/
def chunksFrom (bytes : Bytes) : List Chunk :=
  match _h : Chunk.ofFront? bytes with
  | none => []
  | some (chunk, rest) =>
    if chunk.type = .ending then [chunk] else chunk :: chunksFrom rest
termination_by bytes.length
decreasing_by exact Chunk.ofFront?_length_lt ‹_›

/-- The chunks of a file; none without the signature. -/
def chunks (file : Bytes) : List Chunk :=
  if ImageKind.pngSignature.isPrefixOf file then
    chunksFrom (file.drop ImageKind.pngSignature.length)
  else []

/-- What stands before and after the first zero byte. -/
def splitAtZero? (data : Bytes) : Option (Bytes × Bytes) :=
  match data.span (· != 0) with
  | (_, []) => none
  | (before, _ :: after) => some (before, after)

/-- The keyword at the front of the data and what follows it. -/
def keyword? (data : Bytes) : Option (String × Bytes) := do
  let (keyword, rest) ← splitAtZero? data
  if keyword.isEmpty then none else some (Text.utf8OrLatin1 keyword, rest)

/-- The text of a text chunk. -/
def plainText? (data : Bytes) : Option (String × String) := do
  let (keyword, text) ← keyword? data
  some (keyword, Text.utf8OrLatin1 text)

/-- The text of a compressed text chunk; only method zero is known. -/
def compressedText? (data : Bytes) : Option (String × String) := do
  match ← keyword? data with
  | (keyword, 0 :: stream) =>
    some (keyword, Text.utf8OrLatin1 (← (Zlib.inflate stream).toOption))
  | _ => none

/-- The text of an international text chunk, behind a flag for compression, the method, a
language and a translated keyword. -/
def internationalText? (data : Bytes) : Option (String × String) := do
  match ← keyword? data with
  | (keyword, flag :: _ :: rest) =>
    let (_, rest) ← splitAtZero? rest
    let (_, text) ← splitAtZero? rest
    if flag == 1 then some (keyword, Text.utf8Lossy (← (Zlib.inflate text).toOption))
    else some (keyword, Text.utf8Lossy text)
  | _ => none

/-- The texts of a chunk with their keywords. -/
def Chunk.texts (tags : TagReader) (chunk : Chunk) : List (String × String) :=
  if chunk.type = .text then (plainText? chunk.data).toList
  else if chunk.type = .compressedText then (compressedText? chunk.data).toList
  else if chunk.type = .internationalText then (internationalText? chunk.data).toList
  else if chunk.type = .exif then (tags.exif chunk.data).toList
  else if chunk.type = .manifest then
    ((tags.manifest chunk.data).map fun text => (manifestKeyword, text)).toList
  else []

/-- The size in a header chunk, if both sides are positive. -/
def Chunk.size? (chunk : Chunk) : Option (UInt32 × UInt32) :=
  if chunk.type = .header && 8 ≤ chunk.data.length then
    let width := word (chunk.data.take 4)
    let height := word ((chunk.data.drop 4).take 4)
    if width > 0 && height > 0 then some (width, height) else none
  else none

/-- The texts of a file in order. -/
def texts (tags : TagReader) (file : Bytes) : List (String × String) :=
  (chunks file).flatMap (Chunk.texts tags)

/-- The size of the image: the last that a header gives. -/
def size? (file : Bytes) : Option (UInt32 × UInt32) :=
  ((chunks file).filterMap Chunk.size?).getLast?

end ImageRecipe.Png
