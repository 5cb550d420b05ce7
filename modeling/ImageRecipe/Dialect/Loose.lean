import ImageRecipe.Json.Scalar
import ImageRecipe.Recipe.Basic
import ImageRecipe.Text.Size
import ImageRecipe.Workflow.Seed

/-!
# Loosely written objects

Tools that write a recipe as a JSON object agree neither on the names of its
members nor on their types. A field is looked up under several names, and the
first value that reads as what the field holds is taken.
-/
namespace ImageRecipe

namespace Json

/-- The first value under one of the names that `read` accepts. -/
def firstNamed? {α : Type} (read : Json → Option α) (value : Json) (names : List String) :
    Option α :=
  names.findSome? fun name => (value.get? name).bind read

def textAt? (value : Json) (names : List String) : Option String :=
  value.firstNamed? looseText? names

def floatAt? (value : Json) (names : List String) : Option Float :=
  value.firstNamed? looseFloat? names

def natural32At? (value : Json) (names : List String) : Option UInt32 :=
  value.firstNamed? looseNatural32? names

def seedAt? (value : Json) (names : List String) : Option UInt64 :=
  value.firstNamed? Seed.ofJson? names

/-- A size that is written as a text. -/
def sizeAt? (value : Json) (names : List String) : Option (UInt32 × UInt32) :=
  (value.textAt? names).bind fun s => Text.size? s.toList

/-- The texts under the given names, by name. -/
def textsAt (value : Json) (names : List String) : TextMap :=
  .ofEntries (names.filterMap fun name => (value.textAt? [name]).map fun s => (name, s))

/-- The elements of an array under a name. -/
def itemsAt (value : Json) (name : String) : List Json :=
  ((value.get? name).bind array?).getD []

end Json

namespace Loose

/-- The fields of an object; a size stands in for the sides if there is no width. -/
def recipe (value : Json) (family : Family) : Recipe :=
  let fields : Recipe := {
    generator := some family
    prompt := value.textAt?
      ["prompt", "Prompt", "positive_prompt", "description", "caption", "c"]
    negativePrompt := value.textAt?
      ["negative_prompt", "negativePrompt", "negative", "uc", "Negative prompt"]
    model := value.textAt?
      ["model", "model_name", "checkpoint", "ckpt_name", "engine", "engine_id"]
    vae := value.textAt? ["vae", "vae_name"]
    seed := value.seedAt? ["seed", "Seed"]
    steps := value.natural32At? ["steps", "num_inference_steps", "Steps"]
    cfg := value.floatAt? ["cfg_scale", "cfg", "cfgScale", "guidance_scale", "scale"]
    sampler := value.textAt? ["sampler", "sampler_name", "samplerName"]
    scheduler := value.textAt? ["scheduler", "schedule_type"]
    denoise := value.floatAt? ["denoise", "denoising_strength", "strength"]
    width := value.natural32At? ["width", "w"]
    height := value.natural32At? ["height", "h"] }
  if fields.width.isSome then fields else fields.withSides (value.sizeAt? ["size", "Size"])

end Loose

end ImageRecipe
