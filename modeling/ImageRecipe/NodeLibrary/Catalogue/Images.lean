import ImageRecipe.NodeLibrary.Definition

/-!
# Latents, decoding, image operations and outputs
-/
namespace ImageRecipe.Catalogue

/-- A source of empty latents of a given size. -/
def emptyLatent (classType : String) (widgets : List String) : Definition :=
  (Definition.new classType .latent).withRole .source
    |>.withOutputs ["LATENT"]
    |>.withWidgets widgets
    |>.withRule .width (.widget "width" false)
    |>.withRule .height (.widget "height" false)

def latentUpscale : Definition :=
  (Definition.new "LatentUpscale" .latent).withRole .transform
    |>.withInputs [("samples", "LATENT")]
    |>.withOutputs ["LATENT"]
    |>.withWidgets ["upscale_method", "width", "height", "crop"]
    |>.withRule .width (.widget "width" false)
    |>.withRule .height (.widget "height" false)
    |>.passing "samples" 0

def latentUpscaleBy : Definition :=
  (Definition.new "LatentUpscaleBy" .latent).withRole .transform
    |>.withInputs [("samples", "LATENT")]
    |>.withOutputs ["LATENT"]
    |>.withWidgets ["upscale_method", "scale_by"]
    |>.withRules [.width, .height] (.extract .scaledSize)
    |>.passing "samples" 0

def vaeDecode (classType : String) : Definition :=
  (Definition.new classType .latent).withRole .transform
    |>.withInputs [("samples", "LATENT"), ("vae", "VAE")]
    |>.withOutputs ["IMAGE"]
    |>.withWidgets ["tile_size", "overlap", "temporal_size", "temporal_overlap"]
    |>.withRule .vae (.trace "vae")
    |>.tracingRest "samples"

/-- An operation on the finished image; what it was made with stays as it is. -/
def imageOperation (classType : String) (widgets : List String) : Definition :=
  (Definition.new classType .image).withRole .transform
    |>.withInputs [("image", "IMAGE")]
    |>.withOutputs ["IMAGE"]
    |>.withWidgets widgets
    |>.tracingRest "image"
    |>.passing "image" 0

/-- A node at which a workflow ends. -/
def imageSink (classType : String) (category : Category) (widgets : List String) : Definition :=
  (Definition.new classType category).withRole .sink
    |>.withInputs [("images", "IMAGE")]
    |>.withWidgets widgets
    |>.tracingRest "images"

def images : List Definition := [
  emptyLatent "EmptyLatentImage" ["width", "height", "batch_size"],
  emptyLatent "EmptySD3LatentImage" ["width", "height", "batch_size"],
  emptyLatent "EmptyHunyuanLatentVideo" ["width", "height", "length", "batch_size"],
  emptyLatent "EmptyLTXVLatentVideo" ["width", "height", "length", "batch_size"],
  latentUpscale,
  latentUpscaleBy,
  vaeDecode "VAEDecode",
  vaeDecode "VAEDecodeTiled",
  imageOperation "ImageUpscaleWithModel" [],
  imageOperation "ImageScale" ["upscale_method", "width", "height", "crop"],
  imageOperation "ImageScaleBy" ["upscale_method", "scale_by"],
  imageOperation "ImageSharpen" ["sharpen_radius", "sigma", "alpha"],
  imageSink "SaveImage" .output ["filename_prefix"],
  imageSink "Image Save" .output ["output_path", "filename_prefix"],
  imageSink "SaveImageWebsocket" .output [],
  imageSink "SaveAnimatedWEBP" .output
    ["filename_prefix", "fps", "lossless", "quality", "method"],
  imageSink "VHS_VideoCombine" .output [],
  imageSink "PreviewImage" .preview [],
  imageSink "PreviewBridge" .preview []]

end ImageRecipe.Catalogue
