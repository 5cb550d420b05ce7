import ImageRecipe.Decimal.Shortest
import ImageRecipe.Json.Basic
import ImageRecipe.Text.Numeral

/-!
# Compact JSON text

Values are written without blanks. Integers are written as such; a float has
the shortest digits that read back, positional with a point from `10 ^ -5` to
below `10 ^ 16` and scientific with a signed exponent otherwise.
-/
namespace ImageRecipe

namespace Number

/-- Digits with the decimal point behind the first `point` of them. -/
def positional (digits : List Char) (point : Int) : List Char :=
  if point ≤ 0 then '0' :: '.' :: (List.replicate (-point).toNat '0' ++ digits)
  else
    let whole := digits.take point.toNat
    let fraction := digits.drop point.toNat
    whole ++ List.replicate (point.toNat - whole.length) '0' ++
      '.' :: (if fraction.isEmpty then ['0'] else fraction)

/-- One digit before the point, none behind it if there is only one, and the exponent. -/
def scientific (digits : List Char) (exponent : Int) : List Char :=
  let fraction := digits.drop 1
  digits.take 1 ++ (if fraction.isEmpty then [] else '.' :: fraction) ++
    'e' :: (if exponent < 0 then '-' else '+') :: Nat.toDigits 10 exponent.natAbs

/-- The text of a magnitude. -/
def magnitudeText (b : Decimal.Binary) : List Char :=
  if b.mantissa == 0 then ['0', '.', '0']
  else
    let d := b.shortest
    let digits := Nat.toDigits 10 d.digits
    let point := (digits.length : Int) + d.exponent
    if -5 < point && point ≤ 16 then positional digits point
    else scientific digits (point - 1)

/-- The text of a float. -/
def realText (x : Float) : String :=
  match Decimal.Binary.ofFloat? x with
  | some b =>
    let magnitude := magnitudeText b
    String.ofList (if Decimal.isNegative x then '-' :: magnitude else magnitude)
  | none => "null"

def text : Number → String
  | .int i => Text.integerText i
  | .real x => realText x

end Number

namespace Json

/-- Two lower-case hexadecimal digits. -/
def hexPair (n : Nat) : List Char :=
  [Nat.digitChar (n / 16 % 16), Nat.digitChar (n % 16)]

/-- A character inside a string: quotes, backslashes and control characters are escaped. -/
def escapeChar (c : Char) : List Char :=
  if c == '"' then ['\\', '"']
  else if c == '\\' then ['\\', '\\']
  else if c == '\x08' then ['\\', 'b']
  else if c == '\x0c' then ['\\', 'f']
  else if c == '\n' then ['\\', 'n']
  else if c == '\r' then ['\\', 'r']
  else if c == '\t' then ['\\', 't']
  else if c.toNat < 32 then '\\' :: 'u' :: '0' :: '0' :: hexPair c.toNat
  else [c]

/-- A string with its quotes. -/
def quoted (s : String) : String :=
  "\"" ++ String.ofList (s.toList.flatMap escapeChar) ++ "\""

mutual

/-- The compact text of a value. -/
def text : Json → String
  | .null => "null"
  | .bool true => "true"
  | .bool false => "false"
  | .num n => n.text
  | .str s => quoted s
  | .arr items => "[" ++ ",".intercalate (itemTexts items) ++ "]"
  | .obj members => "\x7b" ++ ",".intercalate (memberTexts members) ++ "\x7d"

def itemTexts : List Json → List String
  | [] => []
  | item :: rest => item.text :: itemTexts rest

def memberTexts : List (String × Json) → List String
  | [] => []
  | (name, value) :: rest => (quoted name ++ ":" ++ value.text) :: memberTexts rest

end

end Json

end ImageRecipe
