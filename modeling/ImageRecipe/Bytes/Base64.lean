import ImageRecipe.Text.Blank
import ImageRecipe.Text.Encoding

/-!
# Base64

Four characters stand for three bytes. A text may hold blanks anywhere and may
lack its padding; bits that belong to no byte have to be zero.
-/
namespace ImageRecipe.Base64

/-- The six bits that a character stands for. -/
def value? (c : Char) : Option Nat :=
  let n := c.toNat
  if 'A' ≤ c && c ≤ 'Z' then some (n - 65)
  else if 'a' ≤ c && c ≤ 'z' then some (n - 71)
  else if '0' ≤ c && c ≤ '9' then some (n + 4)
  else if c == '+' then some 62
  else if c == '/' then some 63
  else none

/-- The three bytes of four values. -/
def threeBytes (a b c d : Nat) : Bytes :=
  [UInt8.ofNat (a * 4 + b / 16), UInt8.ofNat (b % 16 * 16 + c / 4), UInt8.ofNat (c % 4 * 64 + d)]

/-- The bytes of a sequence of values; the last group may have two or three values. -/
def bytesOf? : List Nat → Option Bytes
  | [] => some []
  | [a, b] => if b % 16 == 0 then some [UInt8.ofNat (a * 4 + b / 16)] else none
  | [a, b, c] =>
    if c % 4 == 0 then some [UInt8.ofNat (a * 4 + b / 16), UInt8.ofNat (b % 16 * 16 + c / 4)]
    else none
  | a :: b :: c :: d :: rest => (bytesOf? rest).map (threeBytes a b c d ++ ·)
  | _ => none

/-- The bytes of a text of at least four characters, blanks not counted. -/
def decode? (s : List Char) : Option Bytes :=
  let characters := s.filter fun c => !Text.isBlank c
  if characters.length < 4 then none
  else ((Text.dropEndWhile (· == '=') characters).mapM value?).bind bytesOf?

end ImageRecipe.Base64
