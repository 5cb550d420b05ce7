import ImageRecipe.NodeLibrary.Definition

/-!
# Loaders of models and patches between loader and sampler
-/
namespace ImageRecipe.Catalogue

/-- A loader of checkpoints: the model's name is in the widget `ckpt_name`. -/
def checkpointLoader (classType : String) (widgets : List String) : Definition :=
  (Definition.new classType .loader).withRole .source
    |>.withOutputs ["MODEL", "CLIP", "VAE"]
    |>.withWidgets widgets
    |>.withRule .model (.widget "ckpt_name" false)

/-- A loader of bare models: the name is in the widget `unet_name`. -/
def unetLoader (classType : String) (widgets : List String) : Definition :=
  (Definition.new classType .loader).withRole .source
    |>.withOutputs ["MODEL"]
    |>.withWidgets widgets
    |>.withRule .model (.widget "unet_name" false)

def vaeLoader : Definition :=
  (Definition.new "VAELoader" .loader).withRole .source
    |>.withOutputs ["VAE"]
    |>.withWidgets ["vae_name"]
    |>.withRule .vae (.widget "vae_name" false)

def loraLoader : Definition :=
  (Definition.new "LoraLoader" .loader).withRole .transform
    |>.withInputs [("model", "MODEL"), ("clip", "CLIP")]
    |>.withOutputs ["MODEL", "CLIP"]
    |>.withWidgets ["lora_name", "strength_model", "strength_clip"]
    |>.withRule .lora (.widget "lora_name" true)
    |>.withRule .model (.trace "model")
    |>.passing "model" 0
    |>.passing "clip" 1

def loraLoaderModelOnly : Definition :=
  (Definition.new "LoraLoaderModelOnly" .loader).withRole .transform
    |>.withInputs [("model", "MODEL")]
    |>.withOutputs ["MODEL"]
    |>.withWidgets ["lora_name", "strength_model"]
    |>.withRule .lora (.widget "lora_name" true)
    |>.withRule .model (.trace "model")
    |>.passing "model" 0

/-- A loader with a list of LoRAs that are switched on and off one by one. -/
def powerLoraLoader : Definition :=
  (Definition.new "Power Lora Loader (rgthree)" .loader).withRole .transform
    |>.withInputs [("model", "MODEL"), ("clip", "CLIP")]
    |>.withOutputs ["MODEL", "CLIP"]
    |>.withRule .lora (.extract .loraList)
    |>.withRule .model (.trace "model")
    |>.passing "model" 0
    |>.passing "clip" 1

/-- A change to the model that leaves its name and its LoRAs alone. -/
def modelPatch (classType : String) (widgets : List String) : Definition :=
  (Definition.new classType .patch).withRole .transform
    |>.withInputs [("model", "MODEL")]
    |>.withOutputs ["MODEL"]
    |>.withWidgets widgets
    |>.withRules [.model, .lora] (.trace "model")
    |>.passing "model" 0

def clipSetLastLayer : Definition :=
  (Definition.new "CLIPSetLastLayer" .patch).withRole .transform
    |>.withInputs [("clip", "CLIP")]
    |>.withOutputs ["CLIP"]
    |>.withWidgets ["stop_at_clip_layer"]
    |>.passing "clip" 0

def models : List Definition := [
  checkpointLoader "CheckpointLoaderSimple" ["ckpt_name"],
  checkpointLoader "CheckpointLoader" ["config_name", "ckpt_name"],
  checkpointLoader "unCLIPCheckpointLoader" ["ckpt_name"],
  checkpointLoader "ImageOnlyCheckpointLoader" ["ckpt_name"],
  checkpointLoader "CheckpointLoader|pysssss" ["ckpt_name"],
  unetLoader "UNETLoader" ["unet_name", "weight_dtype"],
  unetLoader "UnetLoaderGGUF" ["unet_name"],
  unetLoader "UnetLoaderGGUFAdvanced"
    ["unet_name", "dequant_dtype", "patch_dtype", "patch_on_device"],
  vaeLoader,
  loraLoader,
  loraLoaderModelOnly,
  powerLoraLoader,
  modelPatch "ModelSamplingDiscrete" ["sampling", "zsnr"],
  modelPatch "ModelSamplingSD3" ["shift"],
  modelPatch "ModelSamplingAuraFlow" ["shift"],
  modelPatch "ModelSamplingFlux" ["max_shift", "base_shift", "width", "height"],
  modelPatch "FreeU_V2" ["b1", "b2", "s1", "s2"],
  modelPatch "PerturbedAttentionGuidance" ["scale"],
  modelPatch "DifferentialDiffusion" [],
  clipSetLastLayer]

end ImageRecipe.Catalogue
