import ImageRecipe.Json.Basic

/-!
# Records written in JSON

A record is an object with a member for each field, or an array of the fields
in order. Members that name no field are ignored; an array may stop early but
has no more elements than there are fields. A field that is absent has a
default, and one of the wrong type makes the whole record unreadable.
-/
namespace ImageRecipe.Json

/-- The fields in order, those that are absent as `none`. -/
def fields? (names : List String) : Json → Option (List (Option Json))
  | .obj members => some (names.map fun name => lookup? name members)
  | .arr items =>
    if items.length ≤ names.length then
      some (items.map some ++ List.replicate (names.length - items.length) none)
    else none
  | _ => none

/-- A field with a default; null is not absent. -/
def fieldOr {α : Type} (default : α) (read : Json → Option α) : Option Json → Option α
  | none => some default
  | some value => read value

/-- A field that may be left open; null is the same as absent. -/
def openField {α : Type} (read : Json → Option α) : Option Json → Option (Option α)
  | none => some none
  | some .null => some none
  | some value => (read value).map some

end ImageRecipe.Json
