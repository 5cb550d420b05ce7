import ImageRecipe.Text.Encoding

/-!
# Bits of a byte sequence

Bits are taken from each byte beginning with the lowest. A reader takes bits
and fails if there are not enough.
-/
namespace ImageRecipe

/-- Bytes and the number of bits of them that were read. -/
structure BitSource where
  bytes : Array UInt8
  position : Nat

abbrev BitReader (α : Type) := StateT BitSource Option α

namespace BitReader

/-- The next bit. -/
def bit : BitReader Nat := fun source =>
  (source.bytes[source.position / 8]?).map fun b =>
    (b.toNat >>> (source.position % 8) % 2, { source with position := source.position + 1 })

/-- The next `n` bits as a number, the first bit lowest. -/
def number : Nat → BitReader Nat
  | 0 => pure 0
  | n + 1 => do
    let low ← bit
    let high ← number n
    return low + 2 * high

/-- Goes on to the next whole byte. -/
def alignToByte : BitReader Unit :=
  modify fun source => { source with position := (source.position + 7) / 8 * 8 }

/-- The next whole byte. -/
def byte : BitReader UInt8 := do return UInt8.ofNat (← number 8)

end BitReader

end ImageRecipe
