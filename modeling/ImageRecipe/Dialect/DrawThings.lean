import ImageRecipe.Dialect.Loose
import ImageRecipe.Fault
import ImageRecipe.Image.Chunks
import ImageRecipe.Payload
import ImageRecipe.Xml.Property

/-!
# The dialect of Draw Things

An object stands in the comment of the user, in the metadata packet or else in
a chunk of its own.
-/
namespace ImageRecipe.DrawThings

def lora? (entry : Json) : Option Lora :=
  let weight := entry.floatAt? ["weight"]
  (entry.textAt? ["file", "model"]).map fun name => ⟨name, weight, weight⟩

def recipe (value : Json) : Recipe :=
  let fields : Recipe := {
    generator := some .drawThings
    prompt := value.textAt? ["c", "prompt"]
    negativePrompt := value.textAt? ["uc", "negative_prompt"]
    model := value.textAt? ["model"]
    loras := (value.itemsAt "lora").filterMap lora?
    seed := value.seedAt? ["seed"]
    steps := value.natural32At? ["steps"]
    cfg := value.floatAt? ["scale", "guidance_scale"]
    sampler := value.textAt? ["sampler"]
    denoise := value.floatAt? ["strength"]
    extra := value.textsAt ["seed_mode", "shift", "clip_skip"] }
  fields.withSides (value.sizeAt? ["size"])

/-- The object of an image. -/
def json? (chunks : TextMap) : Option Json :=
  let comment :=
    (chunks.chunk? packetKeyword).bind fun packet => Xml.property? packet "exif:UserComment"
  (comment.bind Payload.json?).or ((chunks.chunk? "UserComment").bind Payload.json?)

def ofChunks (chunks : TextMap) : Except Fault Recipe :=
  match json? chunks with
  | some value => .ok (recipe value)
  | none => .error .noDrawThingsJson

end ImageRecipe.DrawThings
