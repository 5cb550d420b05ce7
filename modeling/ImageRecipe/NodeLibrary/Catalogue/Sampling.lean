import ImageRecipe.NodeLibrary.Definition

/-!
# Samplers, guiders, noise and schedulers
-/
namespace ImageRecipe.Catalogue

/-- The four inputs of a sampler with a model of its own. -/
def samplerInputs : List (String × String) :=
  [("model", "MODEL"), ("positive", "CONDITIONING"), ("negative", "CONDITIONING"),
    ("latent_image", "LATENT")]

/-- Prompts, model and size lie behind the sampler's inputs. -/
def tracingSamplerInputs (d : Definition) : Definition :=
  d.withRule .prompt (.trace "positive")
    |>.withRule .negativePrompt (.trace "negative")
    |>.withRules [.model, .lora] (.trace "model")
    |>.withRules [.width, .height] (.trace "latent_image")

def kSampler : Definition :=
  (Definition.new "KSampler" .sampler).withRole .transform
    |>.withInputs samplerInputs
    |>.withOutputs ["LATENT"]
    |>.withWidgets ["seed", "control_after_generate", "steps", "cfg", "sampler_name",
        "scheduler", "denoise"]
    |>.withRule .seed (.widget "seed" false)
    |>.withRule .steps (.widget "steps" false)
    |>.withRule .cfg (.widget "cfg" false)
    |>.withRule .sampler (.widget "sampler_name" false)
    |>.withRule .scheduler (.widget "scheduler" false)
    |>.withRule .denoise (.widget "denoise" false)
    |> tracingSamplerInputs
    |>.passing "latent_image" 0

def kSamplerAdvanced : Definition :=
  (Definition.new "KSamplerAdvanced" .sampler).withRole .transform
    |>.withInputs samplerInputs
    |>.withOutputs ["LATENT"]
    |>.withWidgets ["add_noise", "noise_seed", "control_after_generate", "steps", "cfg",
        "sampler_name", "scheduler", "start_at_step", "end_at_step",
        "return_with_leftover_noise"]
    |>.withRule .seed (.widget "noise_seed" false)
    |>.withRule .steps (.widget "steps" false)
    |>.withRule .cfg (.widget "cfg" false)
    |>.withRule .sampler (.widget "sampler_name" false)
    |>.withRule .scheduler (.widget "scheduler" false)
    |> tracingSamplerInputs
    |>.passing "latent_image" 0

def samplerCustom : Definition :=
  (Definition.new "SamplerCustom" .sampler).withRole .transform
    |>.withInputs [("model", "MODEL"), ("positive", "CONDITIONING"),
        ("negative", "CONDITIONING"), ("sampler", "SAMPLER"), ("sigmas", "SIGMAS"),
        ("latent_image", "LATENT")]
    |>.withOutputs ["LATENT", "LATENT"]
    |>.withWidgets ["add_noise", "noise_seed", "control_after_generate", "cfg"]
    |>.withRule .seed (.widget "noise_seed" false)
    |>.withRule .cfg (.widget "cfg" false)
    |>.withRule .sampler (.trace "sampler")
    |>.withRules [.steps, .scheduler, .denoise] (.trace "sigmas")
    |> tracingSamplerInputs
    |>.passing "latent_image" 0
    |>.passing "latent_image" 1

def samplerCustomAdvanced : Definition :=
  (Definition.new "SamplerCustomAdvanced" .sampler).withRole .transform
    |>.withInputs [("noise", "NOISE"), ("guider", "GUIDER"), ("sampler", "SAMPLER"),
        ("sigmas", "SIGMAS"), ("latent_image", "LATENT")]
    |>.withOutputs ["LATENT", "LATENT"]
    |>.withRule .seed (.trace "noise")
    |>.withRules [.cfg, .prompt, .negativePrompt, .model, .lora] (.trace "guider")
    |>.withRule .sampler (.trace "sampler")
    |>.withRules [.steps, .scheduler, .denoise] (.trace "sigmas")
    |>.withRules [.width, .height] (.trace "latent_image")
    |>.passing "latent_image" 0
    |>.passing "latent_image" 1

def cfgGuider : Definition :=
  (Definition.new "CFGGuider" .guider).withRole .transform
    |>.withInputs [("model", "MODEL"), ("positive", "CONDITIONING"),
        ("negative", "CONDITIONING")]
    |>.withOutputs ["GUIDER"]
    |>.withWidgets ["cfg"]
    |>.withRule .cfg (.widget "cfg" false)
    |>.withRule .prompt (.trace "positive")
    |>.withRule .negativePrompt (.trace "negative")
    |>.withRules [.model, .lora] (.trace "model")

/-- The guidance of this guider is on a node of its conditioning. -/
def basicGuider : Definition :=
  (Definition.new "BasicGuider" .guider).withRole .transform
    |>.withInputs [("model", "MODEL"), ("conditioning", "CONDITIONING")]
    |>.withOutputs ["GUIDER"]
    |>.withRules [.prompt, .cfg] (.trace "conditioning")
    |>.withRules [.model, .lora] (.trace "model")

def dualCfgGuider : Definition :=
  (Definition.new "DualCFGGuider" .guider).withRole .transform
    |>.withInputs [("model", "MODEL"), ("cond1", "CONDITIONING"), ("cond2", "CONDITIONING"),
        ("negative", "CONDITIONING")]
    |>.withOutputs ["GUIDER"]
    |>.withWidgets ["cfg_conds", "cfg_cond2_negative", "style"]
    |>.withRule .cfg (.widget "cfg_conds" false)
    |>.withRule .prompt (.extract (.joinInputs ["cond1", "cond2"]))
    |>.withRule .negativePrompt (.trace "negative")
    |>.withRules [.model, .lora] (.trace "model")

def randomNoise : Definition :=
  (Definition.new "RandomNoise" .noise).withRole .source
    |>.withOutputs ["NOISE"]
    |>.withWidgets ["noise_seed", "control_after_generate"]
    |>.withRule .seed (.widget "noise_seed" false)

def disableNoise : Definition :=
  (Definition.new "DisableNoise" .noise).withRole .source
    |>.withOutputs ["NOISE"]

def kSamplerSelect : Definition :=
  (Definition.new "KSamplerSelect" .scheduler).withRole .source
    |>.withOutputs ["SAMPLER"]
    |>.withWidgets ["sampler_name"]
    |>.withRule .sampler (.widget "sampler_name" false)

def basicScheduler : Definition :=
  (Definition.new "BasicScheduler" .scheduler).withRole .transform
    |>.withInputs [("model", "MODEL")]
    |>.withOutputs ["SIGMAS"]
    |>.withWidgets ["scheduler", "steps", "denoise"]
    |>.withRule .scheduler (.widget "scheduler" false)
    |>.withRule .steps (.widget "steps" false)
    |>.withRule .denoise (.widget "denoise" false)

def sdTurboScheduler : Definition :=
  (Definition.new "SDTurboScheduler" .scheduler).withRole .transform
    |>.withInputs [("model", "MODEL")]
    |>.withOutputs ["SIGMAS"]
    |>.withWidgets ["steps", "denoise"]
    |>.withRule .steps (.widget "steps" false)
    |>.withRule .denoise (.widget "denoise" false)

def alignYourStepsScheduler : Definition :=
  (Definition.new "AlignYourStepsScheduler" .scheduler).withRole .source
    |>.withOutputs ["SIGMAS"]
    |>.withWidgets ["model_type", "steps", "denoise"]
    |>.withRule .steps (.widget "steps" false)
    |>.withRule .denoise (.widget "denoise" false)

def karrasScheduler : Definition :=
  (Definition.new "KarrasScheduler" .scheduler).withRole .source
    |>.withOutputs ["SIGMAS"]
    |>.withWidgets ["steps", "sigma_max", "sigma_min", "rho"]
    |>.withRule .steps (.widget "steps" false)

def sampling : List Definition := [
  kSampler, kSamplerAdvanced, samplerCustom, samplerCustomAdvanced,
  cfgGuider, basicGuider, dualCfgGuider,
  randomNoise, disableNoise,
  kSamplerSelect, basicScheduler, sdTurboScheduler, alignYourStepsScheduler, karrasScheduler]

end ImageRecipe.Catalogue
