import ImageRecipe.Proofs.ChunkFraming
import ImageRecipe.Proofs.ImageTexts

/-!
# Files that are cut off

A chunk or a segment that is all there is read from its own bytes, so it does
not matter what follows it. What is read of a file that was cut off is therefore
the first part of what is read of the whole file, and as the first text with a
keyword is the one that is kept, no text changes. Only the content manifest of a
JPEG file is put together from parts and may become shorter.
-/
namespace ImageRecipe

lemma prefix_flatMap {α β : Type} (f : α → List β) {part whole : List α} (h : part <+: whole) :
    part.flatMap f <+: whole.flatMap f := by
  obtain ⟨more, rfl⟩ := h
  rw [List.flatMap_append]
  exact List.prefix_append _ _

namespace Png

theorem prefix_chunksFrom_append (bytes more : Bytes) :
    chunksFrom bytes <+: chunksFrom (bytes ++ more) := by
  fun_induction chunksFrom bytes with
  | case1 bytes hread => exact List.nil_prefix
  | case2 bytes chunk rest hread htype =>
    obtain ⟨hfits, rfl⟩ := Chunk.eq_of_ofFront? hread
    have hsame : chunksFrom (chunk.bytes ++ rest ++ more) = [chunk] := by
      rw [List.append_assoc, chunksFrom_bytes hfits, if_pos htype]
    exact hsame ▸ List.prefix_rfl
  | case3 bytes chunk rest hread htype ih =>
    obtain ⟨hfits, rfl⟩ := Chunk.eq_of_ofFront? hread
    rw [List.append_assoc, chunksFrom_bytes hfits, if_neg htype]
    exact (List.prefix_cons_inj chunk).mpr ih

lemma prefix_chunks {part whole : Bytes} (hpart : ImageKind.pngSignature <+: part)
    (h : part <+: whole) : chunks part <+: chunks whole := by
  obtain ⟨bytes, rfl⟩ := hpart
  obtain ⟨more, rfl⟩ := h
  rw [List.append_assoc, chunks_signature_append, chunks_signature_append]
  exact prefix_chunksFrom_append bytes more

end Png

namespace Jpeg

variable {bytes rest data : Bytes} {marker : UInt8}

lemma marker?_append (h : marker? bytes = some (marker, rest)) (more : Bytes) :
    marker? (bytes ++ more) = some (marker, rest ++ more) := by
  unfold marker? at h
  split at h
  · rename_i tail
    split at h
    · rename_i hdrop
      obtain ⟨rfl, rfl⟩ := Prod.mk.inj (Option.some.inj h)
      rw [List.cons_append, marker?, List.dropWhile_append, hdrop]
      rfl
    · cases h
  · cases h

lemma data?_append (h : data? bytes = some (data, rest)) (more : Bytes) :
    data? (bytes ++ more) = some (data, rest ++ more) := by
  unfold data? at h
  split at h
  · rename_i high low tail
    dsimp only at h
    split at h
    · rename_i hlength
      obtain ⟨rfl, rfl⟩ := Prod.mk.inj (Option.some.inj h)
      rw [List.cons_append, List.cons_append, data?]
      generalize Text.ByteOrder.number .big [high, low] = length at hlength ⊢
      obtain ⟨htwo, hle⟩ : 2 ≤ length ∧ length - 2 ≤ tail.length := by simpa using hlength
      have hmore : 2 ≤ length ∧ length - 2 ≤ (tail ++ more).length :=
        ⟨htwo, Nat.le_trans hle (List.prefix_append tail more).length_le⟩
      rw [List.take_append_of_le_length hle, List.drop_append_of_le_length hle,
        if_pos (by simpa using hmore)]
    · cases h
  · cases h

/-- How a walk goes on behind a marker. -/
lemma segmentsFrom_of_marker? (h : marker? bytes = some (marker, rest)) :
    segmentsFrom bytes =
      if isStandalone marker then segmentsFrom rest
      else if isStop marker then []
      else match data? rest with
        | none => []
        | some (data, rest) => ⟨marker, data⟩ :: segmentsFrom rest := by
  rw [segmentsFrom]
  split
  · rename_i heq
    rw [h] at heq
    cases heq
  · rename_i heq
    rw [h] at heq
    cases heq
    split
    · rfl
    · split
      · rfl
      · split
        · rename_i hdata
          rw [hdata]
        · rename_i hdata
          rw [hdata]

theorem prefix_segmentsFrom_append (bytes more : Bytes) :
    segmentsFrom bytes <+: segmentsFrom (bytes ++ more) := by
  fun_induction segmentsFrom bytes with
  | case1 bytes hmarker => exact List.nil_prefix
  | case2 bytes marker rest hmarker hstandalone ih =>
    rwa [segmentsFrom_of_marker? (marker?_append hmarker more), if_pos hstandalone]
  | case3 bytes marker rest hmarker hstandalone hstop => exact List.nil_prefix
  | case4 bytes marker rest hmarker hstandalone hstop hdata => exact List.nil_prefix
  | case5 bytes marker rest hmarker hstandalone hstop data rest' hdata ih =>
    rw [segmentsFrom_of_marker? (marker?_append hmarker more), if_neg hstandalone, if_neg hstop,
      data?_append hdata more]
    exact (List.prefix_cons_inj _).mpr ih

lemma prefix_segments {part whole : Bytes} (hpart : ImageKind.jpegSignature <+: part)
    (h : part <+: whole) : segments part <+: segments whole := by
  obtain ⟨bytes, rfl⟩ := hpart
  obtain ⟨more, rfl⟩ := h
  exact prefix_segmentsFrom_append (0xFF :: bytes) more

/-- The text of a content manifest is the only one that a longer file may change. -/
lemma lookup_texts_of_prefix (tags : TagReader) {part whole : Bytes}
    (h : segments part <+: segments whole) {keyword text : String}
    (hkeyword : keyword ≠ manifestKeyword) (htext : (texts tags part).lookup keyword = some text) :
    (texts tags whole).lookup keyword = some text := by
  have hmanifest : ∀ file, (texts tags file).lookup keyword =
      ((segments file).flatMap (Segment.texts tags)).lookup keyword := by
    intro file
    -- the content manifest stands behind the other texts and has a keyword of its own
    have hnone : (((manifestText? tags (segments file)).map fun text =>
        (manifestKeyword, text)).toList).lookup keyword = none := by
      rw [List.lookup_eq_none_iff]
      simp [hkeyword]
    rw [texts, List.lookup_append, hnone, Option.or_none]
  rw [hmanifest] at htext ⊢
  exact (prefix_flatMap _ h).lookup_eq_some htext

end Jpeg

/-- More texts behind those that were found change no text that is kept. -/
lemma Settings.getElem?_keptChunks_mono (settings : Settings) {found more : List (String × String)}
    {keyword text : String} (h : found.lookup keyword = some text → more.lookup keyword = some text)
    (htext : (settings.keptChunks found)[keyword]? = some text) :
    (settings.keptChunks more)[keyword]? = some text := by
  rw [Settings.getElem?_keptChunks] at htext ⊢
  split at htext
  · rename_i hkept
    rw [if_pos hkept]
    exact h htext
  · cases htext

/-- Cutting off the end of a file loses texts, but it changes none. Of a PNG file with its
signature the chunks that are left are the first ones of the whole file, and each text that is kept
of them is kept of the whole file under its keyword. The same holds for the segments of a JPEG
file, up to the text of the content manifest. -/
theorem ofBytes_take (settings : Settings) (tags : TagReader) (name : Option String) (file : Bytes)
    (n : Nat) :
    (ImageKind.pngSignature <+: file → 8 ≤ n →
      Png.chunks (file.take n) <+: Png.chunks file ∧
      ∃ part whole : ImageContent,
        ImageContent.ofBytes (file.take n) name settings tags = .ok part ∧
        ImageContent.ofBytes file name settings tags = .ok whole ∧
        ∀ keyword text : String, part.chunks[keyword]? = some text →
          whole.chunks[keyword]? = some text) ∧
    (ImageKind.jpegSignature <+: file → 3 ≤ n →
      Jpeg.segments (file.take n) <+: Jpeg.segments file ∧
      ∃ part whole : ImageContent,
        ImageContent.ofBytes (file.take n) name settings tags = .ok part ∧
        ImageContent.ofBytes file name settings tags = .ok whole ∧
        ∀ keyword text : String, keyword ≠ manifestKeyword → part.chunks[keyword]? = some text →
          whole.chunks[keyword]? = some text) := by
  constructor
  · intro hfile hn
    have hpart : ImageKind.pngSignature <+: file.take n := List.prefix_take_iff.mpr ⟨hfile, hn⟩
    have hchunks := Png.prefix_chunks hpart (List.take_prefix n file)
    refine ⟨hchunks, _, _, ImageContent.ofBytes_of_png name settings tags hpart,
      ImageContent.ofBytes_of_png name settings tags hfile, fun keyword text => ?_⟩
    exact settings.getElem?_keptChunks_mono (prefix_flatMap _ hchunks).lookup_eq_some
  · intro hfile hn
    have hpart : ImageKind.jpegSignature <+: file.take n := List.prefix_take_iff.mpr ⟨hfile, hn⟩
    have hsegments := Jpeg.prefix_segments hpart (List.take_prefix n file)
    refine ⟨hsegments, _, _, ImageContent.ofBytes_of_jpeg name settings tags hpart,
      ImageContent.ofBytes_of_jpeg name settings tags hfile, fun keyword text hkeyword => ?_⟩
    exact settings.getElem?_keptChunks_mono (Jpeg.lookup_texts_of_prefix tags hsegments hkeyword)

/-- A JPEG file with a comment and the first part of a content manifest, which is cut off. -/
def commentedJpeg : Bytes :=
  [0xFF, 0xD8, 0xFF, 0xFE, 0, 3, 0x61, 0xFF, 0xFF, 0xEB, 0, 11, 0x4A, 0x50, 0, 1, 0, 0, 0, 1, 0x41]

/-- Settings that ask for the keyword `a` and for comments. -/
def shortKeywords : Settings := { textKeywords := ["a", "comment"] }

theorem ofBytes_take_shortFiles :
    (Png.chunks ((Png.fileOf Png.textAndEnd).take 30) <+: Png.chunks (Png.fileOf Png.textAndEnd) ∧
      ∃ part whole : ImageContent,
        ImageContent.ofBytes ((Png.fileOf Png.textAndEnd).take 30) none shortKeywords .builtin =
          .ok part ∧
        ImageContent.ofBytes (Png.fileOf Png.textAndEnd) none shortKeywords .builtin = .ok whole ∧
        part.chunks["a"]? = some "b" ∧ whole.chunks["a"]? = some "b") ∧
    Jpeg.segments (commentedJpeg.take 12) <+: Jpeg.segments commentedJpeg ∧
      ∃ part whole : ImageContent,
        ImageContent.ofBytes (commentedJpeg.take 12) none shortKeywords .builtin = .ok part ∧
        ImageContent.ofBytes commentedJpeg none shortKeywords .builtin = .ok whole ∧
        part.chunks["Comment"]? = some "a" ∧ whole.chunks["Comment"]? = some "a" := by
  constructor
  · obtain ⟨hpng, -⟩ := ofBytes_take shortKeywords .builtin none (Png.fileOf Png.textAndEnd) 30
    obtain ⟨hchunks, part, whole, hpart, hwhole, hkept⟩ := hpng (by decide) (by decide)
    have htext : part.chunks["a"]? = some "b" := by
      rw [ImageContent.ofBytes_of_png _ _ _ (by decide)] at hpart
      obtain rfl := Except.ok.inj hpart
      decide +kernel
    exact ⟨hchunks, part, whole, hpart, hwhole, htext, hkept _ _ htext⟩
  · obtain ⟨-, hjpeg⟩ := ofBytes_take shortKeywords .builtin none commentedJpeg 12
    obtain ⟨hsegments, part, whole, hpart, hwhole, hkept⟩ := hjpeg (by decide) (by decide)
    have htext : part.chunks["Comment"]? = some "a" := by
      rw [ImageContent.ofBytes_of_jpeg _ _ _ (by decide)] at hpart
      obtain rfl := Except.ok.inj hpart
      decide +kernel
    exact ⟨hsegments, part, whole, hpart, hwhole, htext, hkept _ _ (by decide) htext⟩

end ImageRecipe
