import ImageRecipe.Text.Encoding

/-!
# Checksums

The cyclic checksum that follows the chunks of a PNG file, and the checksum at
the end of a zlib stream.
-/
namespace ImageRecipe.Checksum

/-- One step of the division by the reflected polynomial `0xEDB88320`. -/
def crcStep (r : UInt32) : UInt32 :=
  if r &&& 1 == 1 then (r >>> 1) ^^^ 0xEDB88320 else r >>> 1

/-- Takes one byte into the remainder. -/
def crcByte (r : UInt32) (b : UInt8) : UInt32 := Nat.repeat crcStep 8 (r ^^^ b.toUInt32)

/-- The cyclic redundancy check with 32 bits. -/
def crc32 (bytes : Bytes) : UInt32 := ~~~(bytes.foldl crcByte 0xFFFFFFFF)

/-- The largest prime below `2 ^ 16`. -/
def adlerModulus : Nat := 65521

/-- The sum of the bytes and the sum of its partial sums. -/
def adlerStep (sums : Nat × Nat) (b : UInt8) : Nat × Nat :=
  let first := (sums.1 + b.toNat) % adlerModulus
  (first, (sums.2 + first) % adlerModulus)

def adler32 (bytes : Bytes) : Nat :=
  let sums := bytes.foldl adlerStep (1, 0)
  sums.2 * 65536 + sums.1

end ImageRecipe.Checksum
