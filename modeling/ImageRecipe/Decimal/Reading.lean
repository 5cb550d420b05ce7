import ImageRecipe.Text.Blank
import ImageRecipe.Text.Numeral

/-!
# Reading floats from text

A sign, digits with an optional point, of which at least one is there, and an
optional exponent; or one of the words for infinity and NaN in any case. The
float nearest to the decimal is taken.
-/
namespace ImageRecipe.Decimal

def infinity : Float := 1.0 / 0.0

def notANumber : Float := 0.0 / 0.0

def negated (negative : Bool) (x : Float) : Float := if negative then -x else x

/-- The float nearest to `digits * 10 ^ exponent`. Far outside the range of floats it is zero or
infinity whatever the digits are, so that no huge power is ever formed. -/
def nearest (digits : Nat) (exponent : Int) : Float :=
  let top := ((Nat.toDigits 10 digits).length : Int) + exponent
  if digits == 0 || top < -330 then 0.0
  else if top > 310 then infinity
  else Float.ofScientific digits (exponent < 0) exponent.natAbs

/-- An optional sign; true for minus. -/
def readSign : List Char → Bool × List Char
  | '-' :: rest => (true, rest)
  | '+' :: rest => (false, rest)
  | s => (false, s)

/-- The exponent behind the mantissa, which is all of `s`. -/
def exponentPart? : List Char → Option Int
  | [] => some 0
  | c :: rest =>
    if c == 'e' || c == 'E' then
      let (negative, digits) := readSign rest
      (Text.digits? digits).map fun n => if negative then -(n : Int) else n
    else none

/-- A decimal without a sign. -/
def unsigned? (s : List Char) : Option Float :=
  let (whole, rest) := s.span Char.isDigit
  let (fraction, rest) := match rest with
    | '.' :: more => more.span Char.isDigit
    | _ => ([], rest)
  if whole.isEmpty && fraction.isEmpty then none
  else (exponentPart? rest).map fun e =>
    nearest (Text.decimalValue (whole ++ fraction)) (e - fraction.length)

/-- A float written as a decimal or as a word. -/
def float? (s : List Char) : Option Float :=
  let (negative, rest) := readSign s
  let word := String.ofList (rest.map Char.toLower)
  if word == "inf" || word == "infinity" then some (negated negative infinity)
  else if word == "nan" then some notANumber
  else (unsigned? rest).map (negated negative)

/-- A float with blanks around it. -/
def trimmedFloat? (s : String) : Option Float := float? (Text.trim s.toList)

end ImageRecipe.Decimal
