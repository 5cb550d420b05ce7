import ImageRecipe.Bytes.Checksum
import ImageRecipe.Bytes.Deflate
import ImageRecipe.Fault

/-!
# Zlib streams

A zlib stream is a two-byte header, deflated data and a checksum. What follows
the stream is not looked at, and no more than the limit is ever put out.
-/
namespace ImageRecipe.Zlib

/-- The greatest size of what a stream is inflated to. -/
def limit : Nat := 64 * 1024 * 1024

/-- A header names the method, a window of at most `2 ^ 15` bytes and no dictionary, and is a
multiple of 31 as a number. -/
def isHeader (method flags : UInt8) : Bool :=
  method.toNat % 16 == 8 && method.toNat / 16 ≤ 7 &&
    (method.toNat * 256 + flags.toNat) % 31 == 0 && flags.toNat / 32 % 2 == 0

/-- The checksum behind the data, highest byte first. -/
def checksum : BitReader Nat := do
  BitReader.alignToByte
  let bytes ← [0, 1, 2, 3].mapM fun _ => BitReader.byte
  return Text.ByteOrder.number .big bytes

/-- The content of a stream, checked unless it was cut off at the limit. -/
def content : BitReader Bytes := do
  let method ← BitReader.byte
  let flags ← BitReader.byte
  if !isHeader method flags then failure
  let out ← Deflate.content limit
  if limit ≤ out.size then return (out.toList.take limit)
  else if (← checksum) == Checksum.adler32 out.toList then return out.toList
  else failure

/-- Inflates a stream, which has to hold something. -/
def inflate (bytes : Bytes) : Except Fault Bytes :=
  match content.run ⟨bytes.toArray, 0⟩ with
  | none => .error .corruptStream
  | some ([], _) => .error .emptyStream
  | some (out, _) => .ok out

end ImageRecipe.Zlib
