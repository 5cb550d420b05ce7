import ImageRecipe.Decimal.Reading
import ImageRecipe.Json.Printer

/-!
# Numbers and texts in place of each other

Where the type of a value is not agreed on, a number may be written as a text
and a text as a number.
-/
namespace ImageRecipe.Json

/-- A number, or a text that reads as one. -/
def looseFloat? : Json → Option Float
  | .num n => some n.float
  | .str s => Decimal.trimmedFloat? s
  | _ => none

/-- A number below `2 ^ 32` without a fraction, or a text that is one. -/
def looseNatural32? : Json → Option UInt32
  | .num n =>
    (Decimal.natural? n.float).bind fun k => if k < UInt32.size then some (UInt32.ofNat k) else none
  | .str s => Text.natural32? (Text.trim s.toList)
  | _ => none

/-- A text that is not blank, without the blanks at its ends, or the text of a number. -/
def looseText? : Json → Option String
  | .num n => some n.text
  | .str s => Text.nonBlank? s
  | _ => none

end ImageRecipe.Json
