import ImageRecipe.Xml.Attribute

/-!
# Properties of a metadata packet

A property is written as an attribute, or as an element whose text may be
nested further. The first value that is not blank counts; the text has to be in
order up to there, with every element closed by its own name.
-/
namespace ImageRecipe.Xml

/-- The text of an element with one more piece, if one is inside the property. -/
def withPiece (depth : Nat) (collected : List (List Char)) (piece : List Char) :
    List (List Char) :=
  if depth > 0 then piece :: collected else []

/-- The first value of `name` in some tokens. `opened` are the names of the open elements, `depth`
is the number of those from the property on, and `collected` is its text so far, last piece
first. -/
def propertyAfter? (name : List Char) :
    List (List Char) → Nat → List (List Char) → List Token → Option String
  | _, _, _, [] => none
  | opened, depth, collected, .opening tag :: rest =>
    if depth > 0 then propertyAfter? name (tag.name :: opened) (depth + 1) collected rest
    else if tag.name == name then propertyAfter? name (tag.name :: opened) 1 [] rest
    else
      match tag.value? name with
      | some value => some value
      | none => propertyAfter? name (tag.name :: opened) 0 [] rest
  | opened, depth, collected, .empty tag :: rest =>
    if depth > 0 then propertyAfter? name opened depth collected rest
    else
      match tag.value? name with
      | some value => some value
      | none => propertyAfter? name opened 0 [] rest
  | opened, depth, collected, .closing closed :: rest =>
    match opened with
    | [] => none
    | last :: opened =>
      if last != closed then none
      else if depth == 1 then
        match Text.nonBlank? (String.ofList collected.reverse.flatten) with
        | some value => some value
        | none => propertyAfter? name opened 0 [] rest
      else propertyAfter? name opened (depth - 1) collected rest
  | opened, depth, collected, .text s :: rest =>
    propertyAfter? name opened depth (withPiece depth collected (unescape s)) rest
  | opened, depth, collected, .reference entity :: rest =>
    let piece := unescape ('&' :: entity ++ [';'])
    propertyAfter? name opened depth (withPiece depth collected piece) rest
  | opened, depth, collected, .section s :: rest =>
    propertyAfter? name opened depth (withPiece depth collected s) rest
  | opened, depth, collected, .other :: rest => propertyAfter? name opened depth collected rest

/-- A text without the mark that may stand at its beginning. -/
def withoutMark : List Char → List Char
  | '\uFEFF' :: s => s
  | s => s

/-- The first value of a property that is not blank. -/
def property? (packet name : String) : Option String :=
  propertyAfter? name.toList [] 0 [] (tokens (withoutMark packet.toList))

end ImageRecipe.Xml
