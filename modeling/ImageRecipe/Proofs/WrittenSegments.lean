import ImageRecipe.Proofs.CutFiles

/-!
# Segments and the bytes that write them

A segment is written as its marker, a length that counts itself, and the data.
Any number of fill bytes may stand before a marker, and markers without data may
stand between the segments. Walking a file that was written so gives back its
segments, whatever follows the end marker or the marker of the image data.
-/
namespace ImageRecipe.Jpeg

/-- A marker that has neither length nor data. -/
def StandsAlone (marker : UInt8) : Prop := marker = 0x01 ∨ 0xD0 ≤ marker ∧ marker ≤ 0xD8

/-- A marker that a length and data follow. -/
def CarriesData (marker : UInt8) : Prop :=
  marker ≠ 0x01 ∧ ¬ (0xD0 ≤ marker ∧ marker ≤ 0xDA) ∧ marker ≠ 0xFF

/-- A marker with fill bytes before it. -/
def markerBytes (fill : Nat) (marker : UInt8) : Bytes :=
  List.replicate (fill + 1) 0xFF ++ [marker]

variable {marker : UInt8}

lemma isStandalone_iff : isStandalone marker = true ↔ StandsAlone marker := by
  simp [isStandalone, StandsAlone]

lemma StandsAlone.ne_fill (h : StandsAlone marker) : marker ≠ 0xFF := by
  rintro rfl
  exact absurd h (by simp [StandsAlone])

lemma CarriesData.isStandalone_eq_false (h : CarriesData marker) : isStandalone marker = false := by
  obtain ⟨hone, hrange, -⟩ := h
  rw [← Bool.not_eq_true, isStandalone_iff]
  rintro (hmarker | ⟨hlow, hhigh⟩)
  · exact hone hmarker
  · exact hrange ⟨hlow, UInt8.le_trans hhigh (by decide)⟩

lemma CarriesData.isStop_eq_false (h : CarriesData marker) : isStop marker = false := by
  obtain ⟨-, hrange, -⟩ := h
  rw [← Bool.not_eq_true, isStop, Bool.or_eq_true, beq_iff_eq, beq_iff_eq]
  rintro (rfl | rfl)
  · exact hrange (by decide)
  · exact hrange (by decide)

/-- A marker is read off the bytes that write it, whatever follows. -/
lemma marker?_markerBytes (h : marker ≠ 0xFF) (fill : Nat) (rest : Bytes) :
    marker? (markerBytes fill marker ++ rest) = some (marker, rest) := by
  have hdrop : (List.replicate fill 0xFF ++ (marker :: rest)).dropWhile (· == 0xFF) =
      marker :: rest := by
    rw [List.dropWhile_append_of_pos (by simp [List.mem_replicate]),
      List.dropWhile_cons_of_neg (by simpa using h)]
  rw [markerBytes, List.append_assoc, List.replicate_succ, List.cons_append, List.singleton_append,
    marker?, hdrop]

/-- Fill bytes alone are no marker. -/
lemma marker?_fill (fill : Nat) : marker? (List.replicate fill 0xFF) = none := by
  cases fill with
  | zero => rfl
  | succ fill =>
    rw [List.replicate_succ, marker?, List.dropWhile_replicate]
    rfl

/-- Whether a segment can be written: its marker is followed by data, and the length of the data
fits the two bytes of the length field together with these. -/
structure Segment.Writable (segment : Segment) : Prop where
  carriesData : CarriesData segment.marker
  length_le : segment.data.length ≤ 65533

/-- The length of some data, which counts itself, and the data. -/
def lengthAndData (data : Bytes) : Bytes :=
  UInt8.ofNat ((data.length + 2) / 256) :: UInt8.ofNat (data.length + 2) :: data

/-- Data are read off the bytes that write them, whatever follows. -/
lemma data?_lengthAndData {data : Bytes} (h : data.length ≤ 65533) (rest : Bytes) :
    data? (lengthAndData data ++ rest) = some (data, rest) := by
  have hlength : Text.ByteOrder.number .big
      [UInt8.ofNat ((data.length + 2) / 256), UInt8.ofNat (data.length + 2)] = data.length + 2 := by
    simp only [Text.ByteOrder.number, List.foldl, UInt8.toNat_ofNat']
    omega
  have hfits : (decide (2 ≤ data.length + 2) &&
      decide (data.length ≤ (data ++ rest).length)) = true := by
    simp [List.length_append]
  simp only [lengthAndData, List.cons_append, data?, hlength, Nat.add_sub_cancel]
  rw [if_pos hfits, List.take_left, List.drop_left]

/-- What may stand before the end of a file, with the number of fill bytes before its marker. -/
inductive Item where
  | alone (fill : Nat) (marker : UInt8) (standsAlone : StandsAlone marker)
  | segment (fill : Nat) (segment : Segment) (writable : segment.Writable)

namespace Item

def bytes : Item → Bytes
  | alone fill marker _ => markerBytes fill marker
  | segment fill s _ => markerBytes fill s.marker ++ lengthAndData s.data

def segment? : Item → Option Segment
  | alone .. => none
  | segment _ s _ => some s

end Item

/-- What a walk ends at: the end of the bytes, where fill bytes may be left, the end marker, or the
marker of the image data. -/
inductive Ending where
  | cut (fill : Nat)
  | close (fill : Nat) (rest : Bytes)
  | imageData (fill : Nat) (rest : Bytes)

def Ending.bytes : Ending → Bytes
  | cut fill => List.replicate fill 0xFF
  | close fill rest => markerBytes fill 0xD9 ++ rest
  | imageData fill rest => markerBytes fill 0xDA ++ rest

/-- The start marker, some items and an ending. -/
def fileOf (items : List Item) (ending : Ending) : Bytes :=
  [0xFF, 0xD8] ++ items.flatMap Item.bytes ++ ending.bytes

lemma segmentsFrom_ending (ending : Ending) : segmentsFrom ending.bytes = [] := by
  cases ending with
  | cut fill =>
    rw [Ending.bytes, segmentsFrom]
    split
    · rfl
    · rename_i heq
      rw [marker?_fill] at heq
      cases heq
  | close fill rest =>
    rw [Ending.bytes, segmentsFrom_of_marker? (marker?_markerBytes (by decide) fill rest)]
    rfl
  | imageData fill rest =>
    rw [Ending.bytes, segmentsFrom_of_marker? (marker?_markerBytes (by decide) fill rest)]
    rfl

/-- A walk goes on behind an item, with its segment if it is one. -/
lemma segmentsFrom_item (item : Item) (rest : Bytes) :
    segmentsFrom (item.bytes ++ rest) = item.segment?.toList ++ segmentsFrom rest := by
  cases item with
  | alone fill marker standsAlone =>
    rw [Item.bytes, segmentsFrom_of_marker? (marker?_markerBytes standsAlone.ne_fill fill rest),
      if_pos (isStandalone_iff.mpr standsAlone)]
    rfl
  | segment fill s writable =>
    obtain ⟨hmarker, hlength⟩ := writable
    rw [Item.bytes, List.append_assoc, segmentsFrom_of_marker?
      (marker?_markerBytes hmarker.2.2 fill _), hmarker.isStandalone_eq_false,
      hmarker.isStop_eq_false, data?_lengthAndData hlength]
    rfl

/-- The segments of a file that was written are those that were written, in their order: neither
fill bytes nor markers that stand alone matter, nor whether the file ends at the end of the bytes,
at the end marker or at the image data, nor what follows these two. -/
theorem segments_fileOf (items : List Item) (ending : Ending) :
    segments (fileOf items ending) = items.filterMap Item.segment? := by
  have hwalk : segmentsFrom (items.flatMap Item.bytes ++ ending.bytes) =
      items.filterMap Item.segment? := by
    induction items with
    | nil => exact segmentsFrom_ending ending
    | cons item items ih =>
      rw [List.flatMap_cons, List.append_assoc, segmentsFrom_item, ih, List.filterMap_cons]
      cases item.segment? <;> rfl
  rw [segments, fileOf, List.append_assoc]
  exact hwalk

example : fileOf [.alone 0 0xD0 (.inr (by decide)),
    .segment 1 ⟨0xFE, [0xFF, 0xD9]⟩ ⟨⟨by decide, by decide, by decide⟩, by decide⟩] (.close 0 [7]) =
    [0xFF, 0xD8, 0xFF, 0xD0, 0xFF, 0xFF, 0xFE, 0, 4, 0xFF, 0xD9, 0xFF, 0xD9, 7] := rfl

end ImageRecipe.Jpeg
