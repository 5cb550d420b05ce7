/-!
# Generation parameters

What a workflow is searched for, and the names under which nodes that nobody
described are likely to hold or to pass on each parameter.
-/
namespace ImageRecipe

inductive Param where
  | prompt
  | negativePrompt
  | seed
  | steps
  | cfg
  | width
  | height
  | model
  | sampler
  | scheduler
  | lora
  | vae
  | denoise
  deriving DecidableEq, Repr

namespace Param

def all : List Param :=
  [prompt, negativePrompt, seed, steps, cfg, width, height, model, sampler, scheduler, lora, vae,
    denoise]

def name : Param → String
  | prompt => "prompt"
  | negativePrompt => "negative_prompt"
  | seed => "seed"
  | steps => "steps"
  | cfg => "cfg"
  | width => "width"
  | height => "height"
  | model => "model"
  | sampler => "sampler"
  | scheduler => "scheduler"
  | lora => "lora"
  | vae => "vae"
  | denoise => "denoise"

def ofName? (name : String) : Option Param := all.find? (·.name == name)

/-- Whether the parameter is a text; the others are numbers. -/
def isText : Param → Bool
  | prompt | negativePrompt | model | sampler | scheduler | lora | vae => true
  | seed | steps | cfg | width | height | denoise => false

/-- Names of literal inputs that hold the parameter. -/
def aliases : Param → List String
  | prompt => ["text", "prompt", "positive_prompt", "text_positive"]
  | negativePrompt => ["text", "negative_prompt", "text_negative"]
  | seed => ["seed", "noise_seed"]
  | steps => ["steps"]
  | cfg => ["cfg", "cfg_scale", "guidance"]
  | width => ["width"]
  | height => ["height"]
  | model => ["ckpt_name", "unet_name", "model_name"]
  | sampler => ["sampler_name", "sampler"]
  | scheduler => ["scheduler"]
  | lora => ["lora_name"]
  | vae => ["vae_name"]
  | denoise => ["denoise"]

/-- Names of linked inputs behind which the parameter is likely to be found. -/
def hints : Param → List String
  | prompt => ["positive", "conditioning", "guider", "samples", "latent", "images", "image"]
  | negativePrompt => ["negative", "guider", "samples", "latent", "images", "image"]
  | seed => ["noise", "samples", "latent", "images", "image"]
  | steps | scheduler | denoise => ["sigmas", "samples", "latent", "images", "image"]
  | cfg => ["guider", "positive", "conditioning", "samples", "latent", "images", "image"]
  | width | height => ["latent_image", "latent", "samples", "images", "image"]
  | model | lora => ["model", "samples", "latent", "images", "image"]
  | sampler => ["sampler", "samples", "latent", "images", "image"]
  | vae => ["vae", "images", "image"]

end Param

end ImageRecipe
