import ImageRecipe.Text.Blank
import ImageRecipe.Text.Numeral

/-!
# Sizes in text

A size is a width and a height with a cross between them.
-/
namespace ImageRecipe.Text

/-- What stands between the sides of a size. -/
def isCross (c : Char) : Bool := c == 'x' || c == 'X' || c == '×'

/-- A width and a height. -/
def size? (s : List Char) : Option (UInt32 × UInt32) := do
  let (width, height) ← splitOnce? isCross (trim s)
  some (← natural32? (trim width), ← natural32? (trim height))

end ImageRecipe.Text
