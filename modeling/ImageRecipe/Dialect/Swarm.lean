import ImageRecipe.Dialect.Loose
import ImageRecipe.Fault
import ImageRecipe.Image.Chunks
import ImageRecipe.Payload

/-!
# The dialect of SwarmUI

An object with the settings stands as a member in the parameters.
-/
namespace ImageRecipe.Swarm

/-- The name of the member with the settings. -/
def settingsName : String := "sui_image_params"

/-- The named LoRAs; the weight of each stands at its place in another list. -/
def loras (settings : Json) : List Lora :=
  let weights := settings.itemsAt "loraweights"
  (settings.itemsAt "loras").zipIdx.filterMap fun entry => do
    let name ← Text.nonBlank? (← entry.1.string?)
    let weight := weights[entry.2]?.bind Json.looseFloat?
    some ⟨name, weight, weight⟩

def recipe (settings : Json) : Recipe where
  generator := some .swarmUi
  prompt := settings.textAt? ["prompt"]
  negativePrompt := settings.textAt? ["negativeprompt"]
  model := settings.textAt? ["model"]
  vae := settings.textAt? ["vae"]
  loras := loras settings
  seed := settings.seedAt? ["seed"]
  steps := settings.natural32At? ["steps"]
  cfg := settings.floatAt? ["cfgscale"]
  sampler := settings.textAt? ["sampler"]
  scheduler := settings.textAt? ["scheduler"]
  denoise := settings.floatAt? ["initimagecreativity"]
  width := settings.natural32At? ["width"]
  height := settings.natural32At? ["height"]
  extra := settings.textsAt ["swarm_version"]

/-- The parameters, if they are JSON. -/
def parameters? (chunks : TextMap) : Option Json :=
  (chunks.chunk? "parameters").bind Payload.json?

/-- Whether the parameters have the member with the settings. -/
def recognised (chunks : TextMap) : Bool :=
  ((parameters? chunks).bind (·.get? settingsName)).isSome

def ofChunks (chunks : TextMap) : Except Fault Recipe :=
  match parameters? chunks with
  | none => .error .parametersNotJson
  | some value =>
    match value.get? settingsName with
    | none => .error .noSwarmParameters
    | some settings => .ok (recipe settings)

end ImageRecipe.Swarm
