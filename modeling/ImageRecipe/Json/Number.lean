import ImageRecipe.Json.Basic
import ImageRecipe.Decimal.Reading

/-!
# Numbers in JSON text

An integer that fits 64 bits stays an integer. Any other number is a float,
computed from the leading digits that fit 64 bits and one power of ten: the
digits are turned into a float and that is multiplied or divided once (twice
for exponents below -308). It is within a few units of the last place of the
decimal; for up to fifteen digits and exponents up to 22 it is the nearest.
-/
namespace ImageRecipe.Json

/-- The digits read so far as a number of 64 bits. -/
structure Significand where
  value : Nat
  /-- How many of the digits were left out because the next one would not have fitted. -/
  dropped : Nat
  deriving Repr, DecidableEq

/-- Appends digits while the value fits 64 bits; from the first that does not fit on, all digits
are left out. -/
def Significand.extend (start : Nat) : List Char → Significand
  | [] => ⟨start, 0⟩
  | c :: rest =>
    let next := start * 10 + (c.toNat - '0'.toNat)
    if next < UInt64.size then extend next rest else ⟨start, rest.length + 1⟩

/-- The float nearest to `10 ^ k`. -/
def powerOfTen (k : Nat) : Float := Float.ofScientific 1 false k

/-- The digits as a float times a power of ten, if the product is finite. -/
def scale? (significand : Nat) (exponent : Int) : Option Float :=
  let x := (UInt64.ofNat significand).toFloat
  if 308 < exponent then (if significand == 0 then some x else none)
  else if 0 ≤ exponent then
    let y := x * powerOfTen exponent.toNat
    if Decimal.isFinite y then some y else none
  else if -308 ≤ exponent then some (x / powerOfTen (-exponent).toNat)
  else if -616 ≤ exponent then some (x / powerOfTen 308 / powerOfTen (-exponent - 308).toNat)
  else some 0.0

/-- The parts of a number as written. -/
structure Numeral where
  negative : Bool
  whole : List Char
  fraction : List Char
  exponent : Option Int
  deriving Repr, DecidableEq

/-- The number that a numeral without fraction and exponent stands for, if it fits 64 bits. Minus
zero is a float. -/
def Numeral.wholeNumber (n : Numeral) (value : Nat) : Number :=
  if !n.negative then .int value
  else if value == 0 || Nat.pow 2 63 < value then .real (-(UInt64.ofNat value).toFloat)
  else .int (-(value : Int))

/-- The number that a numeral stands for; none if it is too large for a float. -/
def Numeral.number? (n : Numeral) : Option Number :=
  let whole := Significand.extend 0 n.whole
  if n.fraction.isEmpty && n.exponent.isNone && whole.dropped == 0 then
    some (n.wholeNumber whole.value)
  else
    let all := Significand.extend whole.value n.fraction
    let kept := n.fraction.length - all.dropped
    let exponent := (whole.dropped : Int) - kept + n.exponent.getD 0
    (scale? all.value exponent).map fun x => .real (Decimal.negated n.negative x)

/-- The digits behind a point; none if there is a point without digits. -/
def fractionDigits? : List Char → Option (List Char × List Char)
  | '.' :: rest =>
    let (digits, rest) := rest.span Char.isDigit
    if digits.isEmpty then none else some (digits, rest)
  | s => some ([], s)

/-- The exponent; none if there is an `e` without digits. -/
def exponent? : List Char → Option (Option Int × List Char)
  | [] => some (none, [])
  | c :: rest =>
    if c == 'e' || c == 'E' then
      let (negative, rest) := Decimal.readSign rest
      let (digits, rest) := rest.span Char.isDigit
      if digits.isEmpty then none
      else
        let value : Int := Text.decimalValue digits
        some (some (if negative then -value else value), rest)
    else some (none, c :: rest)

/-- Splits a numeral off the front. A zero is not followed by another digit. -/
def numeral? (s : List Char) : Option (Numeral × List Char) := do
  let (negative, s) := match s with
    | '-' :: rest => (true, rest)
    | _ => (false, s)
  let (whole, s) := s.span Char.isDigit
  if whole.isEmpty || (whole.head? == some '0' && whole.length != 1) then none
  else
    let (fraction, s) ← fractionDigits? s
    let (exponent, s) ← exponent? s
    some (⟨negative, whole, fraction, exponent⟩, s)

/-- Splits a number off the front. -/
def number? (s : List Char) : Option (Json × List Char) := do
  let (numeral, rest) ← numeral? s
  let number ← numeral.number?
  some (.num number, rest)

end ImageRecipe.Json
