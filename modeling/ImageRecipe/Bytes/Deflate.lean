import ImageRecipe.Bytes.PrefixCode

/-!
# Deflated data

A deflated stream is a sequence of blocks. A block holds bytes as they are, or
code words for bytes and for repetitions of what was put out before. Readers
stop when as much was put out as the limit says.
-/
namespace ImageRecipe.Deflate

/-- The first length of each length symbol and the number of bits that are added to it. -/
def lengthSymbols : Array (Nat × Nat) := #[
  (3, 0), (4, 0), (5, 0), (6, 0), (7, 0), (8, 0), (9, 0), (10, 0), (11, 1), (13, 1), (15, 1),
  (17, 1), (19, 2), (23, 2), (27, 2), (31, 2), (35, 3), (43, 3), (51, 3), (59, 3), (67, 4),
  (83, 4), (99, 4), (115, 4), (131, 5), (163, 5), (195, 5), (227, 5), (258, 0)]

/-- The first distance of each distance symbol and the number of bits that are added to it. -/
def distanceSymbols : Array (Nat × Nat) := #[
  (1, 0), (2, 0), (3, 0), (4, 0), (5, 1), (7, 1), (9, 2), (13, 2), (17, 3), (25, 3), (33, 4),
  (49, 4), (65, 5), (97, 5), (129, 6), (193, 6), (257, 7), (385, 7), (513, 8), (769, 8),
  (1025, 9), (1537, 9), (2049, 10), (3073, 10), (4097, 11), (6145, 11), (8193, 12), (12289, 12),
  (16385, 13), (24577, 13)]

/-- The order in which the lengths of the words for lengths are written. -/
def lengthOrder : List Nat := [16, 17, 18, 0, 8, 7, 9, 6, 10, 5, 11, 4, 12, 3, 13, 2, 14, 1, 15]

/-- The codes of a block: one for bytes, lengths and the end, one for distances. -/
structure Codes where
  literals : PrefixCode
  distances : PrefixCode

/-- The value of a symbol with the bits that are added to it. -/
def extended (table : Array (Nat × Nat)) (symbol : Nat) : BitReader Nat :=
  match table[symbol]? with
  | some (first, bits) => return first + (← BitReader.number bits)
  | none => failure

/-- Puts out `length` bytes again, each from `distance` bytes before. -/
def repeated (distance : Nat) : Nat → Array UInt8 → Option (Array UInt8)
  | 0, out => some out
  | length + 1, out =>
    if distance ≤ out.size then
      (out[out.size - distance]?).bind fun b => repeated distance length (out.push b)
    else none

/-- The words of a compressed block up to its end; `fuel` bounds their number. -/
def words (codes : Codes) (limit : Nat) : Nat → Array UInt8 → BitReader (Array UInt8)
  | 0, _ => failure
  | fuel + 1, out => do
    if limit ≤ out.size then return out
    let symbol ← codes.literals.symbol
    if symbol < 256 then words codes limit fuel (out.push (UInt8.ofNat symbol))
    else if symbol == 256 then return out
    else
      let length ← extended lengthSymbols (symbol - 257)
      let distance ← extended distanceSymbols (← codes.distances.symbol)
      match repeated distance length out with
      | some out => words codes limit fuel out
      | none => failure

/-- The next `n` whole bytes. -/
def plainBytes : Nat → Array UInt8 → BitReader (Array UInt8)
  | 0, out => pure out
  | n + 1, out => do plainBytes n (out.push (← BitReader.byte))

/-- A block of bytes as they are; their number is written twice, the second time inverted. -/
def plainBlock (out : Array UInt8) : BitReader (Array UInt8) := do
  BitReader.alignToByte
  let length ← BitReader.number 16
  let inverted ← BitReader.number 16
  if length + inverted == 65535 then plainBytes length out else failure

/-- The lengths that one word for lengths stands for: itself, the last length again, or zeros. -/
def lengthRun (symbol : Nat) (last : Option Nat) : BitReader (List Nat) := do
  match symbol, last with
  | 16, some l => return List.replicate (3 + (← BitReader.number 2)) l
  | 16, none => failure
  | 17, _ => return List.replicate (3 + (← BitReader.number 3)) 0
  | 18, _ => return List.replicate (11 + (← BitReader.number 7)) 0
  | l, _ => return [l]

/-- Exactly `total` lengths; those read so far are in reverse order, and `fuel` bounds the number
of words. -/
def wordLengths (code : PrefixCode) (total : Nat) : Nat → List Nat → BitReader (List Nat)
  | 0, lengths => if lengths.length == total then return lengths.reverse else failure
  | fuel + 1, lengths => do
    if total ≤ lengths.length then
      if lengths.length == total then return lengths.reverse else failure
    else
      let run ← lengthRun (← code.symbol) lengths.head?
      wordLengths code total fuel (run.reverse ++ lengths)

def code (mayBePartial : Bool) (lengths : List Nat) : BitReader PrefixCode :=
  match PrefixCode.ofLengths? mayBePartial lengths with
  | some code => return code
  | none => failure

/-- The codes that a block brings with it. -/
def ownCodes : BitReader Codes := do
  let literals := 257 + (← BitReader.number 5)
  let distances := 1 + (← BitReader.number 5)
  let written := 4 + (← BitReader.number 4)
  if literals > 286 || distances > 30 then failure
  let lengths ← (lengthOrder.take written).mapM fun symbol =>
    return (symbol, ← BitReader.number 3)
  let lengthCode ← code false ((List.range 19).map fun symbol =>
    ((lengths.find? (·.1 == symbol)).map (·.2)).getD 0)
  let total := literals + distances
  let all ← wordLengths lengthCode total total []
  return ⟨← code true (all.take literals), ← code true (all.drop literals)⟩

/-- The codes of blocks that bring none. -/
def fixedCodes : BitReader Codes := do
  let literals := List.replicate 144 8 ++ List.replicate 112 9 ++ List.replicate 24 7 ++
    List.replicate 8 8
  return ⟨← code false literals, ← code false (List.replicate 32 5)⟩

/-- A block after its header. -/
def block (kind fuel limit : Nat) (out : Array UInt8) : BitReader (Array UInt8) := do
  match kind with
  | 0 => plainBlock out
  | 1 => words (← fixedCodes) limit fuel out
  | 2 => words (← ownCodes) limit fuel out
  | _ => failure

/-- The blocks up to the last one; `fuel` bounds their number and that of their words. -/
def blocks (limit words : Nat) : Nat → Array UInt8 → BitReader (Array UInt8)
  | 0, _ => failure
  | fuel + 1, out => do
    let last ← BitReader.number 1
    let out ← block (← BitReader.number 2) words limit out
    if last == 1 || limit ≤ out.size then return out else blocks limit words fuel out

/-- The content of a deflated stream. Every word and every block takes a bit at least. -/
def content (limit : Nat) : BitReader (Array UInt8) := do
  let bits := 8 * (← get).bytes.size + 1
  blocks limit bits bits #[]

end ImageRecipe.Deflate
