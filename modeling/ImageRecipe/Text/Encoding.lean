/-!
# Texts as bytes

Reading UTF-8, Latin-1 and UTF-16. `utf8Pieces` splits bytes into characters
and broken places, where a broken place is a longest run of bytes that begins
some character and does not complete it, or a single byte that begins none.
The lossy readings put U+FFFD at every broken place; the strict one refuses.
-/
namespace ImageRecipe

/-- The content of a file or of a part of one. -/
abbrev Bytes := List UInt8

namespace Text

/-- What stands for a broken place in a lossy reading. -/
def replacement : Char := '\uFFFD'

/-- A byte that continues a character. -/
def isTail (b : UInt8) : Bool := 0x80 ≤ b && b ≤ 0xBF

/-- The second bytes that may follow a lead byte of three or four: overlong forms, surrogates
and code points above U+10FFFF are left out. -/
def isSecond (lead b : UInt8) : Bool :=
  if lead == 0xE0 then 0xA0 ≤ b && b ≤ 0xBF
  else if lead == 0xED then 0x80 ≤ b && b ≤ 0x9F
  else if lead == 0xF0 then 0x90 ≤ b && b ≤ 0xBF
  else if lead == 0xF4 then 0x80 ≤ b && b ≤ 0x8F
  else isTail b

/-- The six bits that a continuing byte holds. -/
def tailBits (b : UInt8) : Nat := b.toNat % 64

/-- A three-byte character behind its lead byte, and the bytes after it. -/
def threeBytes (lead : UInt8) : Bytes → Option Char × Bytes
  | b₁ :: rest =>
    if isSecond lead b₁ then
      match rest with
      | b₂ :: rest' =>
        if isTail b₂ then
          (some (Char.ofNat ((lead.toNat % 16) * 4096 + tailBits b₁ * 64 + tailBits b₂)), rest')
        else (none, rest)
      | [] => (none, [])
    else (none, b₁ :: rest)
  | [] => (none, [])

/-- A four-byte character behind its lead byte, and the bytes after it. -/
def fourBytes (lead : UInt8) : Bytes → Option Char × Bytes
  | b₁ :: rest =>
    if isSecond lead b₁ then
      match rest with
      | b₂ :: rest' =>
        if isTail b₂ then
          match rest' with
          | b₃ :: rest'' =>
            if isTail b₃ then
              (some (Char.ofNat ((lead.toNat % 8) * 262144 + tailBits b₁ * 4096 +
                tailBits b₂ * 64 + tailBits b₃)), rest'')
            else (none, rest')
          | [] => (none, [])
        else (none, rest)
      | [] => (none, [])
    else (none, b₁ :: rest)
  | [] => (none, [])

/-- The character or broken place that begins with `lead`, and the bytes after it. -/
def utf8Front (lead : UInt8) (rest : Bytes) : Option Char × Bytes :=
  if lead < 0x80 then (some (Char.ofNat lead.toNat), rest)
  else if 0xC2 ≤ lead && lead ≤ 0xDF then
    match rest with
    | b₁ :: rest' =>
      if isTail b₁ then (some (Char.ofNat ((lead.toNat % 32) * 64 + tailBits b₁)), rest')
      else (none, rest)
    | [] => (none, [])
  else if 0xE0 ≤ lead && lead ≤ 0xEF then threeBytes lead rest
  else if 0xF0 ≤ lead && lead ≤ 0xF4 then fourBytes lead rest
  else (none, rest)

theorem threeBytes_length_le (lead : UInt8) (rest : Bytes) :
    (threeBytes lead rest).2.length ≤ rest.length := by
  unfold threeBytes
  (repeat' split) <;> simp
  omega

theorem fourBytes_length_le (lead : UInt8) (rest : Bytes) :
    (fourBytes lead rest).2.length ≤ rest.length := by
  unfold fourBytes
  (repeat' split) <;> simp
  omega

theorem utf8Front_length_le (lead : UInt8) (rest : Bytes) :
    (utf8Front lead rest).2.length ≤ rest.length := by
  have h₃ := threeBytes_length_le lead rest
  have h₄ := fourBytes_length_le lead rest
  unfold utf8Front
  (repeat' split) <;> simp_all

/-- The characters of UTF-8 bytes in order, `none` at each broken place. -/
def utf8Pieces : Bytes → List (Option Char)
  | [] => []
  | lead :: rest =>
    let front := utf8Front lead rest
    front.1 :: utf8Pieces front.2
termination_by bytes => bytes.length
decreasing_by
  have := utf8Front_length_le lead rest
  simp only [List.length_cons]
  omega

/-- UTF-8 with U+FFFD at each broken place. -/
def utf8Lossy (bytes : Bytes) : String :=
  String.ofList ((utf8Pieces bytes).map (·.getD replacement))

/-- UTF-8 without a broken place. -/
def utf8? (bytes : Bytes) : Option String :=
  ((utf8Pieces bytes).mapM id).map String.ofList

/-- Latin-1: every byte is the code point of one character. -/
def latin1 (bytes : Bytes) : String := String.ofList (bytes.map fun b => Char.ofNat b.toNat)

/-- UTF-8 where it is valid, Latin-1 otherwise. -/
def utf8OrLatin1 (bytes : Bytes) : String := (utf8? bytes).getD (latin1 bytes)

/-- The bytes of a string in UTF-8. -/
def utf8Bytes (s : String) : Bytes := s.toUTF8.toList

inductive ByteOrder where
  | little
  | big
  deriving DecidableEq, Repr

/-- The number that bytes in the given order write in base 256. -/
def ByteOrder.number (order : ByteOrder) (bytes : Bytes) : Nat :=
  let bigEndian (bs : Bytes) := bs.foldl (fun n b => n * 256 + b.toNat) 0
  match order with
  | .big => bigEndian bytes
  | .little => bigEndian bytes.reverse

/-- The 16-bit units of a byte list; an odd byte at the end is left out. -/
def units16 (order : ByteOrder) : Bytes → List Nat
  | a :: b :: rest => order.number [a, b] :: units16 order rest
  | _ => []

def isHighSurrogate (u : Nat) : Bool := 0xD800 ≤ u && u ≤ 0xDBFF

def isLowSurrogate (u : Nat) : Bool := 0xDC00 ≤ u && u ≤ 0xDFFF

/-- The code point of a surrogate pair. -/
def surrogatePair (high low : Nat) : Nat := 0x10000 + (high - 0xD800) * 1024 + (low - 0xDC00)

/-- UTF-16 with U+FFFD for every surrogate that has no partner. -/
def utf16Chars : List Nat → List Char
  | [] => []
  | u :: rest =>
    if isHighSurrogate u then
      match rest with
      | v :: rest' =>
        if isLowSurrogate v then Char.ofNat (surrogatePair u v) :: utf16Chars rest'
        else replacement :: utf16Chars (v :: rest')
      | [] => [replacement]
    else if isLowSurrogate u then replacement :: utf16Chars rest
    else Char.ofNat u :: utf16Chars rest

/-- The text of 16-bit units up to the first zero. -/
def utf16Text (order : ByteOrder) (bytes : Bytes) : String :=
  String.ofList (utf16Chars ((units16 order bytes).takeWhile (· != 0)))

end Text

end ImageRecipe
