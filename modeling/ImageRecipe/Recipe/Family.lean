/-!
# Generator families

The tools and platforms that write the recipe of an image into it.
-/
namespace ImageRecipe

inductive Family where
  | comfyUi
  | invokeAi
  | a1111
  | forge
  | sdNext
  | swarmUi
  | midjourney
  | niji
  | drawThings
  | firefly
  | dreamStudio
  | dalle3
  | unknown
  deriving DecidableEq, Repr

namespace Family

def all : List Family :=
  [comfyUi, invokeAi, a1111, forge, sdNext, swarmUi, midjourney, niji, drawThings, firefly,
    dreamStudio, dalle3, unknown]

def name : Family → String
  | comfyUi => "comfy_ui"
  | invokeAi => "invoke_ai"
  | a1111 => "a1111"
  | forge => "forge"
  | sdNext => "sd_next"
  | swarmUi => "swarm_ui"
  | midjourney => "midjourney"
  | niji => "niji"
  | drawThings => "draw_things"
  | firefly => "firefly"
  | dreamStudio => "dream_studio"
  | dalle3 => "dalle3"
  | unknown => "unknown"

def ofName? (name : String) : Option Family := all.find? (·.name == name)

/-- The model of a platform that never names one. -/
def platformModel? : Family → Option String
  | firefly => some "Adobe Firefly"
  | dalle3 => some "DALL-E 3"
  | _ => none

/-- Whether the family writes its parameters as lines of text. -/
def writesParameterText : Family → Bool
  | a1111 | forge | sdNext => true
  | _ => false

end Family

end ImageRecipe
