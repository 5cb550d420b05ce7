import Std.Data.ExtTreeMap

/-!
# Texts by name

A map from names to texts, such as the text chunks of an image by their keyword
or the further settings of a recipe. Two maps with the same entries are equal,
and the entries are listed by name, in the order of code points.
-/
namespace ImageRecipe

abbrev TextMap := Std.ExtTreeMap String String

namespace TextMap

/-- The map of a list of entries; the last of several with one name counts. -/
def ofEntries (entries : List (String × String)) : TextMap :=
  entries.foldl (fun map entry => map.insert entry.1 entry.2) ∅

/-- Adds the entries of `lower` whose names are not there yet. -/
def filledFrom (map lower : TextMap) : TextMap := lower ∪ map

/-- Adds an entry unless its name is there already. -/
def insertNew (map : TextMap) (name text : String) : TextMap :=
  if map.contains name then map else map.insert name text

end TextMap

end ImageRecipe
