import ImageRecipe.Dialect.Loose
import ImageRecipe.Dialect.ParameterText
import ImageRecipe.Fault
import ImageRecipe.Payload

/-!
# The dialects of DreamStudio

A loose object, a parameter text, or just a prompt, in any of several chunks.
-/
namespace ImageRecipe.DreamStudio

/-- The keywords of the chunks that may hold something. -/
def keywords : List String :=
  ["parameters", "Description", "Comment", "ImageDescription", "UserComment"]

/-- The first payload, if it is an object. -/
def object? (texts : List String) : Option Json :=
  (texts.findSome? Payload.json?).filter Json.isObject

/-- The first text that is not blank and does not name the tool. -/
def prompt? (texts : List String) : Option String :=
  (texts.filterMap Text.nonBlank?).find? fun s => !Text.mentions "dreamstudio" s

def ofChunks (chunks : TextMap) : Except Fault Recipe :=
  let texts := chunks.chunkTexts keywords
  match object? texts with
  | some value => .ok (Loose.recipe value .dreamStudio)
  | none =>
    match texts.find? ParameterText.recognised with
    | some s => .ok (ParameterText.recipe s .dreamStudio)
    | none =>
      match prompt? texts with
      | some prompt => .ok { Recipe.ofFamily .dreamStudio with prompt := some prompt }
      | none => .error .noDreamStudioPayload

end ImageRecipe.DreamStudio
