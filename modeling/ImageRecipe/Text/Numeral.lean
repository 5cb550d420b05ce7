/-!
# Whole numbers in text

Numerals of ASCII digits. A numeral below a bound may begin with one plus
sign; a signed one with one plus or minus sign. Leading zeros are allowed, and
a number that does not lie in the range is no numeral.
-/
namespace ImageRecipe.Text

/-- The value of a list of decimal digits. -/
def decimalValue (digits : List Char) : Nat :=
  digits.foldl (fun n c => n * 10 + (c.toNat - '0'.toNat)) 0

/-- A non-empty run of ASCII digits and nothing else. -/
def digits? (s : List Char) : Option Nat :=
  if !s.isEmpty && s.all Char.isDigit then some (decimalValue s) else none

/-- A natural number below `bound`, with at most one plus sign before it. -/
def natural? (bound : Nat) (s : List Char) : Option Nat :=
  let digits := match s with
    | '+' :: rest => rest
    | _ => s
  (digits? digits).filter (· < bound)

/-- A number of 32 bits. -/
def natural32? (s : List Char) : Option UInt32 := (natural? UInt32.size s).map UInt32.ofNat

/-- A signed number of 64 bits. -/
def integer64? (s : List Char) : Option Int :=
  match s with
  | '-' :: rest => ((digits? rest).filter (· ≤ Nat.pow 2 63)).map fun n => -(n : Int)
  | _ => (natural? (Nat.pow 2 63) s).map Int.ofNat

def isHexDigit (c : Char) : Bool :=
  c.isDigit || ('a' ≤ c && c ≤ 'f') || ('A' ≤ c && c ≤ 'F')

def hexDigitValue (c : Char) : Nat :=
  if c.isDigit then c.toNat - '0'.toNat
  else if 'a' ≤ c then c.toNat - 'a'.toNat + 10
  else c.toNat - 'A'.toNat + 10

/-- The value of a list of hexadecimal digits. -/
def hexValue (digits : List Char) : Nat := digits.foldl (fun n c => n * 16 + hexDigitValue c) 0

/-- A non-empty run of hexadecimal digits and nothing else. -/
def hexDigits? (s : List Char) : Option Nat :=
  if !s.isEmpty && s.all isHexDigit then some (hexValue s) else none

/-- A number in decimal digits without leading zeros. -/
def decimalText (n : Nat) : String := String.ofList (Nat.toDigits 10 n)

def integerText (i : Int) : String :=
  if i < 0 then "-" ++ decimalText i.natAbs else decimalText i.natAbs

end ImageRecipe.Text
