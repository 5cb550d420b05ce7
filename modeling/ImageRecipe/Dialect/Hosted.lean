import ImageRecipe.Fault
import ImageRecipe.Image.Chunks
import ImageRecipe.Recipe.Basic
import ImageRecipe.Xml.Property

/-!
# Hosted platforms

A platform that signs its images says in the content manifest who made them
and little else.
-/
namespace ImageRecipe.Hosted

open Text

/-- The names that a line of the manifest is told by. -/
def makers : List String := ["firefly", "adobe", "openai", "chatgpt", "dall"]

/-- The first line of a manifest with the name of a maker. -/
def claimGenerator? (manifest : String) : Option String :=
  ((lines manifest.toList).map fun line => String.ofList (trim line)).find? fun line =>
    makers.any (mentions · line)

/-- The description of the image. -/
def description? (chunks : TextMap) : Option String :=
  let described :=
    (chunks.chunk? packetKeyword).bind fun packet => Xml.property? packet "dc:description"
  described.or (chunks.chunkTexts ["Description", "ImageDescription"]).head?

def ofChunks (chunks : TextMap) (family : Family) : Except Fault Recipe :=
  match chunks.chunk? manifestKeyword with
  | none => .error .noManifest
  | some manifest => .ok {
      generator := some family
      prompt := description? chunks
      model := family.platformModel?
      extra := .ofEntries
        ((claimGenerator? manifest).map fun line => ("claim_generator", line)).toList }

end ImageRecipe.Hosted
