import ImageRecipe.Text.Blank
import ImageRecipe.Text.Encoding
import ImageRecipe.TextMap

/-!
# Exif blocks

An Exif block is a TIFF file: a byte order, a directory of numbered entries,
and values that stand in an entry or elsewhere in the block. Texts are read
from the first directory and from the Exif directory that it points to.
-/
namespace ImageRecipe.Exif

open Text (ByteOrder)

structure Tiff where
  order : ByteOrder
  data : Bytes

/-- The bytes at an offset, if all of them are there. -/
def slice? (data : Bytes) (offset size : Nat) : Option Bytes :=
  let bytes := (data.drop offset).take size
  if bytes.length == size then some bytes else none

namespace Tiff

def number? (tiff : Tiff) (offset size : Nat) : Option Nat :=
  (slice? tiff.data offset size).map tiff.order.number

/-- A block that begins with a byte order and the number 42. -/
def ofBytes? (data : Bytes) : Option Tiff := do
  let order ← match data with
    | 0x49 :: 0x49 :: _ => some ByteOrder.little
    | 0x4D :: 0x4D :: _ => some ByteOrder.big
    | _ => none
  let tiff : Tiff := ⟨order, data⟩
  if tiff.number? 2 2 == some 42 then some tiff else none

/-- The size of one value of a type. -/
def unitSize? : Nat → Option Nat
  | 1 | 2 | 6 | 7 => some 1
  | 3 | 8 => some 2
  | 4 | 9 => some 4
  | _ => none

/-- The value of the entry at an offset. Up to four bytes stand in the entry itself. -/
def value? (tiff : Tiff) (entry : Nat) : Option Bytes := do
  let type ← tiff.number? (entry + 2) 2
  let count ← tiff.number? (entry + 4) 4
  let size := count * (← unitSize? type)
  let start ← if size ≤ 4 then some (entry + 8) else tiff.number? (entry + 8) 4
  slice? tiff.data start size

/-- The offsets of the entries of a directory with their tags, as far as the block goes. -/
def entries (tiff : Tiff) (directory : Nat) : List (Nat × Nat) :=
  let count := (tiff.number? directory 2).getD 0
  let offsets := (List.range count).map fun i => directory + 2 + i * 12
  (offsets.map fun entry => (tiff.number? entry 2).map fun tag => (tag, entry)).takeWhile
    Option.isSome |>.filterMap id

end Tiff

/-- The byte order of UTF-16 without a mark: in Latin text the high bytes are zero. As many zeros
in either place leave it open. -/
def utf16Order? (bytes : Bytes) : Option ByteOrder :=
  let units := Text.units16 .big (bytes.take 128)
  let highZeros := (units.filter (· < 256)).length
  let lowZeros := (units.filter (· % 256 == 0)).length
  if highZeros > lowZeros then some .big
  else if highZeros < lowZeros then some .little
  else none

/-- UTF-16 text, in the order that its mark or its zeros show. -/
def utf16Comment (order : ByteOrder) : Bytes → String
  | 0xFE :: 0xFF :: text => Text.utf16Text .big text
  | 0xFF :: 0xFE :: text => Text.utf16Text .little text
  | text => Text.utf16Text ((utf16Order? text).getD order) text

/-- The name of the character set before a comment in UTF-16. -/
def unicodeMark : Bytes := Text.utf8Bytes "UNICODE"

/-- A comment behind the eight bytes that name its character set. -/
def userComment? (order : ByteOrder) (value : Bytes) : Option String :=
  if value.length < 8 then none
  else if unicodeMark.isPrefixOf value then some (utf16Comment order (value.drop 8))
  else some (Text.utf8Lossy (value.drop 8))

/-- Text up to the first zero byte. -/
def zeroEnded (value : Bytes) : String := Text.utf8OrLatin1 (value.takeWhile (· != 0))

/-- The name and the text of an entry whose tag is known. -/
def rawText? (tiff : Tiff) (tag entry : Nat) : Option (String × String) :=
  match tag with
  | 0x010E => (tiff.value? entry).map fun v => ("ImageDescription", zeroEnded v)
  | 0x0131 => (tiff.value? entry).map fun v => ("Software", zeroEnded v)
  | 0x013B => (tiff.value? entry).map fun v => ("Artist", zeroEnded v)
  | 0x9286 => ((tiff.value? entry).bind (userComment? tiff.order)).map fun s => ("UserComment", s)
  | 0x9C9C => (tiff.value? entry).map fun v => ("Comment", Text.utf16Text .little v)
  | _ => none

/-- A text without zeros at its end and then without blanks at its ends. -/
def tidyText? (text : String) : Option String :=
  Text.nonBlank? (String.ofList (Text.dropEndWhile (· == '\x00') text.toList))

/-- The texts of a directory in order. -/
def texts (tiff : Tiff) (directory : Nat) : List (String × String) :=
  (tiff.entries directory).filterMap fun (tag, entry) => do
    let (name, text) ← rawText? tiff tag entry
    some (name, ← tidyText? text)

/-- The Exif directory that a directory points to. -/
def pointer? (tiff : Tiff) (directory : Nat) : Option Nat :=
  (tiff.entries directory).findSome? fun (tag, entry) =>
    if tag == 0x8769 then tiff.number? (entry + 8) 4 else none

/-- The texts of the first directory and of the Exif directory, unless that is the same. -/
def allTexts (tiff : Tiff) (first : Nat) : List (String × String) :=
  match pointer? tiff first with
  | some second => texts tiff first ++ if second == first then [] else texts tiff second
  | none => texts tiff first

/-- The texts of a block by name, the first of each name. -/
def read (block : Bytes) : TextMap :=
  let found := match Tiff.ofBytes? block with
    | some tiff => ((tiff.number? 4 4).map (allTexts tiff)).getD []
    | none => []
  found.foldl (fun map f => map.insertNew f.1 f.2) ∅

end ImageRecipe.Exif
