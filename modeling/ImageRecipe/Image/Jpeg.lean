import ImageRecipe.Image.Chunks
import ImageRecipe.Image.Tags

/-!
# JPEG files

Behind its start marker a JPEG file has segments: a marker with any number of
fill bytes before it, a length that counts itself, and data. Some markers stand
alone. Segments are read up to the image data, the end marker, or the first
segment that is not all there.
-/
namespace ImageRecipe.Jpeg

structure Segment where
  marker : UInt8
  data : Bytes
  deriving DecidableEq, Repr

/-- Whether a marker has neither length nor data. -/
def isStandalone (marker : UInt8) : Bool := marker == 0x01 || (0xD0 ≤ marker && marker ≤ 0xD8)

/-- The end marker, and the marker before the image data. -/
def isStop (marker : UInt8) : Bool := marker == 0xD9 || marker == 0xDA

/-- Whether a segment gives the size of the image. -/
def isFrameHeader (marker : UInt8) : Bool :=
  0xC0 ≤ marker && marker ≤ 0xCF && marker != 0xC4 && marker != 0xC8 && marker != 0xCC

/-- The marker at the front of some bytes and what follows it. -/
def marker? : Bytes → Option (UInt8 × Bytes)
  | 0xFF :: rest =>
    match rest.dropWhile (· == 0xFF) with
    | marker :: rest => some (marker, rest)
    | [] => none
  | _ => none

/-- The data of a segment behind its marker and what follows it. -/
def data? : Bytes → Option (Bytes × Bytes)
  | high :: low :: rest =>
    let length := Text.ByteOrder.number .big [high, low]
    if 2 ≤ length && length - 2 ≤ rest.length then
      some (rest.take (length - 2), rest.drop (length - 2))
    else none
  | _ => none

theorem marker?_length_lt {bytes rest : Bytes} {marker : UInt8}
    (h : marker? bytes = some (marker, rest)) : rest.length < bytes.length := by
  unfold marker? at h
  split at h
  · rename_i tail
    split at h
    · rename_i head rest' heq
      simp only [Option.some.injEq, Prod.mk.injEq] at h
      have hle : (tail.dropWhile (· == 0xFF)).length ≤ tail.length :=
        (List.dropWhile_sublist _).length_le
      rw [heq] at hle
      rw [← h.2]
      simp only [List.length_cons] at hle ⊢
      omega
    · simp at h
  · simp at h

theorem data?_length_le {bytes data rest : Bytes}
    (h : data? bytes = some (data, rest)) : rest.length ≤ bytes.length := by
  unfold data? at h
  split at h
  · dsimp only at h
    split at h
    · simp only [Option.some.injEq, Prod.mk.injEq] at h
      rw [← h.2]
      simp
      omega
    · simp at h
  · simp at h

/-- The segments at the front of some bytes. -/
def segmentsFrom (bytes : Bytes) : List Segment :=
  match _h : marker? bytes with
  | none => []
  | some (marker, rest) =>
    if isStandalone marker then segmentsFrom rest
    else if isStop marker then []
    else
      match _h' : data? rest with
      | none => []
      | some (data, rest') => ⟨marker, data⟩ :: segmentsFrom rest'
termination_by bytes.length
decreasing_by
  · exact marker?_length_lt ‹_›
  · exact Nat.lt_of_le_of_lt (data?_length_le ‹_›) (marker?_length_lt ‹_›)

/-- The segments of a file behind its start marker. -/
def segments (file : Bytes) : List Segment := segmentsFrom (file.drop 2)

/-- What an Exif block begins with. -/
def exifMark : Bytes := Text.utf8Bytes "Exif\x00\x00"

/-- What a metadata packet begins with. -/
def packetMark : Bytes := Text.utf8Bytes "http://ns.adobe.com/xap/1.0/\x00"

/-- What a part of a content manifest begins with. -/
def boxMark : Bytes := Text.utf8Bytes "JP"

/-- The texts of a segment with their keywords. -/
def Segment.texts (tags : TagReader) (segment : Segment) : List (String × String) :=
  if segment.marker == 0xE1 then
    if exifMark.isPrefixOf segment.data then
      (tags.exif (segment.data.drop exifMark.length)).toList
    else if packetMark.isPrefixOf segment.data then
      [(packetKeyword, Text.utf8Lossy (segment.data.drop packetMark.length))]
    else []
  else if segment.marker == 0xFE then [(commentKeyword, Text.utf8OrLatin1 segment.data)]
  else []

/-- The part of a content manifest in a segment, behind a head of eight bytes. -/
def Segment.manifestPart (segment : Segment) : Bytes :=
  if segment.marker == 0xEB && boxMark.isPrefixOf segment.data then segment.data.drop 8 else []

/-- The size in a frame header, if both sides are positive. -/
def Segment.size? (segment : Segment) : Option (UInt32 × UInt32) :=
  if isFrameHeader segment.marker then
    match segment.data with
    | _ :: h₁ :: h₀ :: w₁ :: w₀ :: _ =>
      let width := UInt32.ofNat (Text.ByteOrder.number .big [w₁, w₀])
      let height := UInt32.ofNat (Text.ByteOrder.number .big [h₁, h₀])
      if width > 0 && height > 0 then some (width, height) else none
    | _ => none
  else none

/-- The text of the content manifest, whose parts are put together. -/
def manifestText? (tags : TagReader) (segments : List Segment) : Option String :=
  let manifest := segments.flatMap Segment.manifestPart
  if manifest.isEmpty then none else tags.manifest manifest

/-- The texts of a file; that of the content manifest comes last. -/
def texts (tags : TagReader) (file : Bytes) : List (String × String) :=
  let segments := segments file
  segments.flatMap (Segment.texts tags) ++
    ((manifestText? tags segments).map fun text => (manifestKeyword, text)).toList

/-- The size of the image: the first that a frame header gives. -/
def size? (file : Bytes) : Option (UInt32 × UInt32) :=
  (segments file).findSome? Segment.size?

end ImageRecipe.Jpeg
