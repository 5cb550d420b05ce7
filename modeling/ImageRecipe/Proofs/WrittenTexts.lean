import ImageRecipe.Proofs.ChunkFraming
import ImageRecipe.Proofs.ImageTexts
import ImageRecipe.Proofs.PayloadLayers
import Mathlib.Data.List.Basic
import Mathlib.Data.List.TakeDrop

/-!
# Texts that are written into a file

A text can stand in a chunk of each of the three types, as it is or compressed,
behind a keyword that is ended by a zero byte. Whatever its form it is read back
as it was written, and so the texts of a file are those that were written into
it, in order. Of the texts with one keyword the first is kept, and the other
chunks between the header and the end add nothing.
-/
namespace ImageRecipe.Png

lemma splitAtZero?_append {before : Bytes} (h : 0 ∉ before) (after : Bytes) :
    splitAtZero? (before ++ 0 :: after) = some (before, after) := by
  have hall : ∀ b ∈ before, (b != 0) = true := fun b hb => bne_iff_ne.mpr fun h0 => h (h0 ▸ hb)
  rw [splitAtZero?, List.span_eq_takeWhile_dropWhile, List.takeWhile_append_of_pos hall,
    List.dropWhile_append_of_pos hall]
  simp

lemma keyword?_append {keyword : String} (hne : keyword ≠ "") (hzero : '\x00' ∉ keyword.toList)
    (rest : Bytes) : keyword? (Text.utf8Bytes keyword ++ 0 :: rest) = some (keyword, rest) := by
  simp [keyword?, splitAtZero?_append (Text.zero_notMem_utf8Bytes hzero),
    Text.utf8Bytes_ne_nil hne, Text.utf8OrLatin1_utf8Bytes]

/-- What an international text says about its language. -/
structure LanguageTag where
  language : Bytes
  translated : Bytes
  zero_notMem_language : 0 ∉ language
  zero_notMem_translated : 0 ∉ translated

section Reading

variable {keyword text : String} {stream : Bytes}

/-- A zero byte in a text does no harm, as the keyword ends at the first one. -/
lemma plainText?_append (hne : keyword ≠ "") (hnul : '\x00' ∉ keyword.toList) :
    plainText? (Text.utf8Bytes keyword ++ 0 :: Text.utf8Bytes text) = some (keyword, text) := by
  simp [plainText?, keyword?_append hne hnul, Text.utf8OrLatin1_utf8Bytes]

lemma compressedText?_append (hne : keyword ≠ "") (hnul : '\x00' ∉ keyword.toList)
    (hinflate : Zlib.inflate stream = .ok (Text.utf8Bytes text)) :
    compressedText? (Text.utf8Bytes keyword ++ 0 :: 0 :: stream) = some (keyword, text) := by
  simp [compressedText?, keyword?_append hne hnul, hinflate, Text.utf8OrLatin1_utf8Bytes,
    Except.toOption]

lemma internationalText?_append (hne : keyword ≠ "") (hnul : '\x00' ∉ keyword.toList)
    (tag : LanguageTag) :
    internationalText? (Text.utf8Bytes keyword ++ 0 :: (0 :: 0 :: tag.language ++
      0 :: (tag.translated ++ 0 :: Text.utf8Bytes text))) = some (keyword, text) := by
  simp [internationalText?, keyword?_append hne hnul, splitAtZero?_append tag.zero_notMem_language,
    splitAtZero?_append tag.zero_notMem_translated, Text.utf8Lossy_utf8Bytes]

lemma internationalText?_append_stream (hne : keyword ≠ "") (hnul : '\x00' ∉ keyword.toList)
    (tag : LanguageTag) (hinflate : Zlib.inflate stream = .ok (Text.utf8Bytes text)) :
    internationalText? (Text.utf8Bytes keyword ++ 0 :: (1 :: 0 :: tag.language ++
      0 :: (tag.translated ++ 0 :: stream))) = some (keyword, text) := by
  simp [internationalText?, keyword?_append hne hnul, splitAtZero?_append tag.zero_notMem_language,
    splitAtZero?_append tag.zero_notMem_translated, hinflate, Text.utf8Lossy_utf8Bytes,
    Except.toOption]

end Reading

/-- The types of the chunks in which texts and tags stand. -/
def textTypes : List ChunkType := [.text, .compressedText, .internationalText, .exif, .manifest]

/-- The chunk of some data, with their checksum. -/
def Chunk.ofData (type : ChunkType) (data : Bytes) : Chunk :=
  ⟨type, data, Checksum.crc32 (type.bytes ++ data)⟩

/-- A form in which a text can be written. A stream has to inflate to the bytes of the text. -/
inductive TextForm (text : String) where
  | plain
  | compressed (stream : Bytes) (inflate : Zlib.inflate stream = .ok (Text.utf8Bytes text))
  | international (tag : LanguageTag)
  | compressedInternational (tag : LanguageTag) (stream : Bytes)
    (inflate : Zlib.inflate stream = .ok (Text.utf8Bytes text))

namespace TextForm

variable {text : String}

def type : TextForm text → ChunkType
  | plain => .text
  | compressed _ _ => .compressedText
  | international _ => .internationalText
  | compressedInternational _ _ _ => .internationalText

lemma type_mem (form : TextForm text) : form.type ∈ textTypes := by
  cases form <;> simp [type, textTypes]

/-- What stands behind the keyword: one byte for the method of a compressed text; a flag, the
method, the language and the translated keyword for an international one. -/
def bytes : TextForm text → Bytes
  | plain => Text.utf8Bytes text
  | compressed stream _ => 0 :: stream
  | international tag => 0 :: 0 :: tag.language ++ 0 :: (tag.translated ++ 0 :: Text.utf8Bytes text)
  | compressedInternational tag stream _ =>
    1 :: 0 :: tag.language ++ 0 :: (tag.translated ++ 0 :: stream)

end TextForm

/-- A text with the keyword and the form in which it is written. The keyword says something and is
ended by the first zero byte, and the data are not too long for a chunk. -/
structure WrittenText where
  keyword : String
  text : String
  form : TextForm text
  keyword_ne : keyword ≠ ""
  nul_notMem : '\x00' ∉ keyword.toList
  length_lt : (Text.utf8Bytes keyword ++ 0 :: form.bytes).length < 2 ^ 32

def WrittenText.chunk (written : WrittenText) : Chunk :=
  .ofData written.form.type (Text.utf8Bytes written.keyword ++ 0 :: written.form.bytes)

section Texts

variable (tags : TagReader) {chunk : Chunk}

lemma Chunk.texts_of_text (h : chunk.type = .text) :
    chunk.texts tags = (plainText? chunk.data).toList := by
  rw [Chunk.texts, if_pos h]

lemma Chunk.texts_of_compressedText (h : chunk.type = .compressedText) :
    chunk.texts tags = (compressedText? chunk.data).toList := by
  rw [Chunk.texts, h, if_neg (by decide), if_pos rfl]

lemma Chunk.texts_of_internationalText (h : chunk.type = .internationalText) :
    chunk.texts tags = (internationalText? chunk.data).toList := by
  rw [Chunk.texts, h, if_neg (by decide), if_neg (by decide), if_pos rfl]

lemma Chunk.texts_of_notMem (h : chunk.type ∉ textTypes) : chunk.texts tags = [] := by
  simp only [textTypes, List.mem_cons, List.not_mem_nil, or_false, not_or] at h
  obtain ⟨htext, hcompressed, hinternational, hexif, hmanifest⟩ := h
  rw [Chunk.texts, if_neg htext, if_neg hcompressed, if_neg hinternational, if_neg hexif,
    if_neg hmanifest]

/-- A text is read off its chunk, whatever its form. -/
lemma WrittenText.texts_chunk (written : WrittenText) :
    written.chunk.texts tags = [(written.keyword, written.text)] := by
  obtain ⟨keyword, text, form, hne, hnul, hlength⟩ := written
  cases form with
  | plain =>
    rw [Chunk.texts_of_text tags rfl]
    exact congrArg Option.toList (plainText?_append hne hnul)
  | compressed stream hinflate =>
    rw [Chunk.texts_of_compressedText tags rfl]
    exact congrArg Option.toList (compressedText?_append hne hnul hinflate)
  | international tag =>
    rw [Chunk.texts_of_internationalText tags rfl]
    exact congrArg Option.toList (internationalText?_append hne hnul tag)
  | compressedInternational tag stream hinflate =>
    rw [Chunk.texts_of_internationalText tags rfl]
    exact congrArg Option.toList (internationalText?_append_stream hne hnul tag hinflate)

end Texts

/-- What stands between the header and the end: a text, or a chunk that is not read. -/
inductive Part where
  | text (written : WrittenText)
  | other (chunk : Chunk) (fits : chunk.Fits)
    (unread : chunk.type ∉ ChunkType.header :: ChunkType.ending :: textTypes)

namespace Part

def chunk : Part → Chunk
  | text written => written.chunk
  | other chunk _ _ => chunk

def text? : Part → Option WrittenText
  | text written => some written
  | other _ _ _ => none

lemma fits_chunk (part : Part) : part.chunk.Fits := by
  cases part with
  | text written => exact written.length_lt
  | other chunk fits unread => exact fits

lemma type_chunk (part : Part) : part.chunk.type ≠ .header ∧ part.chunk.type ≠ .ending := by
  cases part with
  | text written =>
    have hneither : ∀ type ∈ textTypes, type ≠ .header ∧ type ≠ .ending := by decide
    exact hneither _ written.form.type_mem
  | other chunk fits unread =>
    exact ⟨List.ne_of_not_mem_cons unread,
      List.ne_of_not_mem_cons (List.not_mem_of_not_mem_cons unread)⟩

lemma texts_chunk (tags : TagReader) (part : Part) :
    part.chunk.texts tags = part.text?.toList.map fun w => (w.keyword, w.text) := by
  cases part with
  | text written => exact written.texts_chunk tags
  | other chunk fits unread =>
    exact Chunk.texts_of_notMem tags
      (List.not_mem_of_not_mem_cons (List.not_mem_of_not_mem_cons unread))

end Part

/-- How the pixels are stored, as the header says it behind the size. -/
structure PixelFormat where
  depth : UInt8
  colour : UInt8
  compression : UInt8
  filter : UInt8
  interlace : UInt8

def headerChunk (width height : UInt32) (format : PixelFormat) : Chunk :=
  .ofData .header (wordBytes width ++ wordBytes height ++
    [format.depth, format.colour, format.compression, format.filter, format.interlace])

def endChunk : Chunk := .ofData .ending []

/-- The texts among the parts, in order. -/
def writtenTexts (parts : List Part) : List WrittenText := parts.filterMap Part.text?

def writtenChunks (width height : UInt32) (format : PixelFormat) (parts : List Part) : List Chunk :=
  headerChunk width height format :: parts.map Part.chunk ++ [endChunk]

/-- A file with a header, some parts and an end. -/
def writtenFile (width height : UInt32) (format : PixelFormat) (parts : List Part) : Bytes :=
  fileOf (writtenChunks width height format parts)

section File

variable (tags : TagReader) (width height : UInt32) (format : PixelFormat) (parts : List Part)

lemma writable_writtenChunks : Writable (writtenChunks width height format parts) := by
  have hheader : (headerChunk width height format).Fits ∧
      (headerChunk width height format).type ≠ .ending :=
    ⟨show 13 < 2 ^ 32 by decide, show ChunkType.header ≠ .ending by decide⟩
  constructor
  · intro chunk hchunk
    simp only [writtenChunks, List.cons_append, List.mem_cons, List.mem_append, List.mem_map,
      List.not_mem_nil, or_false] at hchunk
    rcases hchunk with rfl | ⟨part, -, rfl⟩ | rfl
    · exact hheader.1
    · exact part.fits_chunk
    · decide
  · intro chunk hchunk
    rw [writtenChunks, List.dropLast_concat] at hchunk
    rcases List.mem_cons.mp hchunk with rfl | hmem
    · exact hheader.2
    · obtain ⟨part, -, rfl⟩ := List.mem_map.mp hmem
      exact part.type_chunk.2

lemma chunks_writtenFile :
    chunks (writtenFile width height format parts) = writtenChunks width height format parts := by
  have hread := chunks_fileOf_append (writable_writtenChunks width height format parts)
    (Or.inl rfl : ([] : Bytes) = [] ∨ _)
  rwa [List.append_nil] at hread

lemma texts_writtenFile : texts tags (writtenFile width height format parts) =
    (writtenTexts parts).map fun w => (w.keyword, w.text) := by
  have hheader : (headerChunk width height format).texts tags = [] :=
    Chunk.texts_of_notMem tags (show ChunkType.header ∉ textTypes by decide)
  have hend : endChunk.texts tags = [] := Chunk.texts_of_notMem tags (by decide)
  have hparts : (parts.map Part.chunk).flatMap (Chunk.texts tags) =
      (writtenTexts parts).map fun w => (w.keyword, w.text) := by
    have hpart : Chunk.texts tags ∘ Part.chunk =
        fun part => (part.text?.map fun w => (w.keyword, w.text)).toList := by
      funext part
      rw [Function.comp_apply, part.texts_chunk tags, Option.toList_map]
    rw [writtenTexts, List.flatMap_map, List.map_filterMap, List.filterMap_eq_flatMap_toList,
      ← hpart]
    rfl
  rw [texts, chunks_writtenFile, writtenChunks, List.flatMap_append, List.flatMap_cons, hheader,
    hparts, List.flatMap_singleton, hend, List.nil_append, List.append_nil]

lemma Chunk.size?_of_ne {chunk : Chunk} (h : chunk.type ≠ .header) : chunk.size? = none := by
  simp [Chunk.size?, h]

lemma size?_headerChunk : (headerChunk width height format).size? =
    if 0 < width ∧ 0 < height then some (width, height) else none := by
  have hwidth : word ((headerChunk width height format).data.take 4) = width := word_wordBytes width
  have hheight : word (((headerChunk width height format).data.drop 4).take 4) = height :=
    word_wordBytes height
  have hlong : ((headerChunk width height format).type = .header &&
      8 ≤ (headerChunk width height format).data.length) = true := rfl
  rw [Chunk.size?, if_pos hlong, hwidth, hheight]
  simp

lemma size?_writtenFile : size? (writtenFile width height format parts) =
    if 0 < width ∧ 0 < height then some (width, height) else none := by
  have hrest : (parts.map Part.chunk ++ [endChunk]).filterMap Chunk.size? = [] := by
    refine List.filterMap_eq_nil_iff.mpr fun chunk hchunk => Chunk.size?_of_ne ?_
    rcases List.mem_append.mp hchunk with hmem | hmem
    · obtain ⟨part, -, rfl⟩ := List.mem_map.mp hmem
      exact part.type_chunk.1
    · obtain rfl := List.mem_singleton.mp hmem
      decide
  rw [size?, chunks_writtenFile, writtenChunks, List.cons_append, List.filterMap_cons,
    size?_headerChunk, hrest]
  by_cases hsides : 0 < width ∧ 0 < height
  · rw [if_pos hsides]
    rfl
  · rw [if_neg hsides]
    rfl

end File

/-- The text that is written first with a keyword. -/
def firstText? (parts : List Part) (keyword : String) : Option String :=
  ((writtenTexts parts).find? fun w => w.keyword == keyword).map (·.text)

lemma lookup_texts (written : List WrittenText) (keyword : String) :
    (written.map fun w => (w.keyword, w.text)).lookup keyword =
      (written.find? fun w => w.keyword == keyword).map (·.text) := by
  induction written with
  | nil => rfl
  | cons w written ih =>
    rw [List.map_cons, List.lookup_cons, List.find?_cons, Bool.beq_comm]
    cases w.keyword == keyword with
    | true => rfl
    | false => exact ih

lemma isSome_firstText?_iff {parts : List Part} {keyword : String} :
    (firstText? parts keyword).isSome = true ↔
      ∃ w ∈ writtenTexts parts, w.keyword = keyword := by
  rw [firstText?, Option.isSome_map, List.find?_isSome]
  simp only [beq_iff_eq]

lemma getElem?_keptChunks_writtenFile (settings : Settings) (tags : TagReader)
    (width height : UInt32) (format : PixelFormat) (parts : List Part) (keyword : String) :
    (settings.keptChunks (texts tags (writtenFile width height format parts)))[keyword]? =
      if settings.isTextKeyword keyword = true then firstText? parts keyword else none := by
  have hempty : firstText? parts "" = none := by
    rw [← Option.not_isSome_iff_eq_none, isSome_firstText?_iff]
    rintro ⟨w, -, hw⟩
    exact w.keyword_ne hw
  rw [Settings.getElem?_keptChunks, texts_writtenFile, lookup_texts]
  by_cases hkeyword : keyword = ""
  · subst hkeyword
    simp [hempty]
  · simp [hkeyword, firstText?]

/-- Texts that are written into a file are read back. Whatever the settings and whatever is read of
tags, the keywords that are kept are the ones the settings ask for among those that were written,
and each has the text that was written with it first. The size is the one in the header, if both
sides are positive. -/
theorem ofBytes_writtenFile (settings : Settings) (tags : TagReader) (name : Option String)
    (width height : UInt32) (format : PixelFormat) (parts : List Part) :
    ∃ content, ImageContent.ofBytes (writtenFile width height format parts) name settings tags =
        .ok content ∧
      (∀ keyword, keyword ∈ content.chunks ↔
        settings.isTextKeyword keyword = true ∧ ∃ w ∈ writtenTexts parts, w.keyword = keyword) ∧
      (∀ keyword ∈ content.chunks, content.chunks[keyword]? = firstText? parts keyword) ∧
      content.size = if 0 < width ∧ 0 < height then some (width, height) else none := by
  have hsignature : ImageKind.pngSignature <+: writtenFile width height format parts :=
    List.prefix_append _ _
  have hkept := getElem?_keptChunks_writtenFile settings tags width height format parts
  have hkeys : ∀ keyword,
      keyword ∈ settings.keptChunks (texts tags (writtenFile width height format parts)) ↔
        settings.isTextKeyword keyword = true ∧
          ∃ w ∈ writtenTexts parts, w.keyword = keyword := by
    intro keyword
    rw [Std.ExtTreeMap.mem_iff_isSome_getElem?, hkept, ← isSome_firstText?_iff]
    split <;> simp [*]
  refine ⟨_, ImageContent.ofBytes_of_png name settings tags hsignature, hkeys, ?_,
    size?_writtenFile width height format parts⟩
  intro keyword hmem
  exact (hkept keyword).trans (if_pos ((hkeys keyword).mp hmem).1)

def englishTag : LanguageTag := ⟨[0x65, 0x6E], [], by decide, by decide⟩

/-- A text in each of its forms and data of pixels, with one keyword that is used twice. -/
def seedParts : List Part := [
  .text ⟨"parameters", "é\x00", .plain, by decide, by decide,
    by rw [TextForm.bytes, Text.utf8Bytes_eq_flatMap, Text.utf8Bytes_eq_flatMap]; decide⟩,
  .other ⟨⟨0x49, 0x44, 0x41, 0x54⟩, [0, 1, 2], 7⟩ (by decide) (by decide),
  .text ⟨"prompt", Payload.seedText, .compressed Payload.seedStream Payload.inflate_seedStream,
    by decide, by decide, by rw [Text.utf8Bytes_eq_flatMap]; decide⟩,
  .text ⟨"workflow", "ü", .international englishTag, by decide, by decide,
    by rw [TextForm.bytes, Text.utf8Bytes_eq_flatMap, Text.utf8Bytes_eq_flatMap]; decide⟩,
  .text ⟨"parameters", Payload.seedText,
    .compressedInternational englishTag Payload.seedStream Payload.inflate_seedStream,
    by decide, by decide, by rw [Text.utf8Bytes_eq_flatMap]; decide⟩]

theorem ofBytes_writtenFile_seedParts :
    ∃ content, ImageContent.ofBytes (writtenFile 512 768 ⟨8, 2, 0, 0, 0⟩ seedParts) none
        { textKeywords := ["parameters", "Prompt"] } .builtin = .ok content ∧
      content.chunks["parameters"]? = some "é\x00" ∧
      content.chunks["prompt"]? = some Payload.seedText ∧
      "workflow" ∉ content.chunks ∧ content.size = some (512, 768) := by
  obtain ⟨content, hcontent, hkeys, htexts, hsize⟩ := ofBytes_writtenFile
    { textKeywords := ["parameters", "Prompt"] } .builtin none 512 768 ⟨8, 2, 0, 0, 0⟩ seedParts
  have hparameters : "parameters" ∈ content.chunks :=
    (hkeys "parameters").mpr ⟨by decide, isSome_firstText?_iff.mp (by decide)⟩
  have hprompt : "prompt" ∈ content.chunks :=
    (hkeys "prompt").mpr ⟨by decide, isSome_firstText?_iff.mp (by decide)⟩
  have hworkflow : "workflow" ∉ content.chunks := fun hmem =>
    absurd ((hkeys "workflow").mp hmem).1 (by decide)
  exact ⟨content, hcontent, htexts _ hparameters, htexts _ hprompt, hworkflow, hsize⟩

end ImageRecipe.Png
