import ImageRecipe.Decimal.Binary
import ImageRecipe.Decimal.Reading
import ImageRecipe.Text.Search

/-!
# Numbers and moments in TOML

Digits may have single underscores between them. A number has no leading
zeros; an integer may be hexadecimal, octal or binary. A moment is a date, a
time or both, with or without an offset.
-/
namespace ImageRecipe.Toml

open Text

/-- The digits of a numeral without the underscores between them. -/
def grouped? (p : Char → Bool) (s : List Char) : Option (List Char) :=
  let groups := split (· == '_') s
  if groups.all fun g => !g.isEmpty && g.all p then some groups.flatten else none

/-- Decimal digits without leading zeros. -/
def whole? (s : List Char) : Option (List Char) :=
  (grouped? Char.isDigit s).filter fun digits => digits.head? != some '0' || digits.length == 1

def isOctalDigit (c : Char) : Bool := '0' ≤ c && c ≤ '7'

def isBinaryDigit (c : Char) : Bool := c == '0' || c == '1'

/-- The value of digits in a base of at most sixteen. -/
def valueIn (base : Nat) (digits : List Char) : Nat :=
  digits.foldl (fun n c => n * base + hexDigitValue c) 0

/-- An integer of any size. -/
def anyInteger? : List Char → Option Int
  | '0' :: 'x' :: s => (grouped? isHexDigit s).map fun d => valueIn 16 d
  | '0' :: 'o' :: s => (grouped? isOctalDigit s).map fun d => valueIn 8 d
  | '0' :: 'b' :: s => (grouped? isBinaryDigit s).map fun d => valueIn 2 d
  | s =>
    let (negative, s) := Decimal.readSign s
    (whole? s).map fun d => if negative then -(valueIn 10 d : Int) else valueIn 10 d

/-- An integer that 128 bits can hold, with a sign or without. -/
def integer? (s : List Char) : Option Int :=
  (anyInteger? s).filter fun i => -(Nat.pow 2 127 : Int) ≤ i && i < Nat.pow 2 128

/-- The digits of a float without its sign and its underscores. -/
def floatText? (s : List Char) : Option (List Char) := do
  let (mantissa, exponent) := match splitOnce? (fun c => c == 'e' || c == 'E') s with
    | some (mantissa, exponent) => (mantissa, some exponent)
    | none => (s, none)
  let mantissa ← match splitOnce? (· == '.') mantissa with
    | some (whole, fraction) =>
      pure ((← whole? whole) ++ '.' :: (← grouped? Char.isDigit fraction))
    | none => if exponent.isSome then whole? mantissa else none
  match exponent with
  | none => some mantissa
  | some exponent =>
    let (negative, digits) := Decimal.readSign exponent
    some (mantissa ++ 'e' :: (if negative then ['-'] else []) ++ (← grouped? Char.isDigit digits))

/-- A float; one that is too large is none. -/
def float? (s : List Char) : Option Float :=
  let (negative, rest) := Decimal.readSign s
  if rest == "inf".toList then some (Decimal.negated negative Decimal.infinity)
  else if rest == "nan".toList then some Decimal.notANumber
  else
    (((floatText? rest).bind Decimal.float?).filter Decimal.isFinite).map
      (Decimal.negated negative)

/-- A number of exactly `count` digits. -/
def fixed? (count : Nat) (s : List Char) : Option (Nat × List Char) := do
  if (s.take count).length == count then some (← digits? (s.take count), s.drop count) else none

def isLeap (year : Nat) : Bool := year % 4 == 0 && (year % 100 != 0 || year % 400 == 0)

def daysIn (year month : Nat) : Nat :=
  if month == 2 then (if isLeap year then 29 else 28)
  else if [4, 6, 9, 11].contains month then 30
  else 31

/-- What follows a date. -/
def date? (s : List Char) : Option (List Char) := do
  let (year, s) ← fixed? 4 s
  let (month, s) ← fixed? 2 (← after? ['-'] s)
  let (day, s) ← fixed? 2 (← after? ['-'] s)
  if 1 ≤ month && month ≤ 12 && 1 ≤ day && day ≤ daysIn year month then some s else none

/-- What follows an hour and a minute. -/
def hourMinute? (s : List Char) : Option (List Char) := do
  let (hour, s) ← fixed? 2 s
  let (minute, s) ← fixed? 2 (← after? [':'] s)
  if hour < 24 && minute < 60 then some s else none

/-- What follows a fraction of a second, which may be left out. -/
def fraction? : List Char → Option (List Char)
  | '.' :: s => if (s.takeWhile Char.isDigit).isEmpty then none else some (s.dropWhile Char.isDigit)
  | s => some s

/-- What follows a time. The seconds may be left out. -/
def time? (s : List Char) : Option (List Char) := do
  let s ← hourMinute? s
  match s with
  | ':' :: s =>
    let (second, s) ← fixed? 2 s
    if second ≤ 60 then fraction? s else none
  | s => some s

/-- Whether nothing but an offset is left, if that. -/
def endsMoment : List Char → Bool
  | [] => true
  | c :: s =>
    if c == 'Z' || c == 'z' then s.isEmpty
    else (c == '+' || c == '-') && hourMinute? s == some []

/-- Whether a text is a moment. -/
def isMoment (s : List Char) : Bool :=
  match date? s with
  | some [] => true
  | some (c :: rest) => (c == 'T' || c == 't' || c == ' ') && (time? rest).any endsMoment
  | none => time? s == some []

end ImageRecipe.Toml
