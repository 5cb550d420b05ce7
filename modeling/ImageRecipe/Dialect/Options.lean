/-!
# Options

Options are named values in the order in which they were written. Of several
with one name the last counts.
-/
namespace ImageRecipe

abbrev Options := List (String × List Char)

namespace Options

/-- The value of the last option under one of the names. -/
def last? (options : Options) (names : List String) : Option (List Char) :=
  (options.reverse.find? fun o => names.contains o.1).map (·.2)

/-- The same as a string. -/
def lastText? (options : Options) (names : List String) : Option String :=
  (options.last? names).map String.ofList

end Options

end ImageRecipe
