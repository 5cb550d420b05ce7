import ImageRecipe.Recipe.Basic

/-!
# What a workflow says

The facts that searches of a workflow bring to light, and the recipe that they
make.
-/
namespace ImageRecipe

structure Facts where
  positivePrompt : Option String := none
  negativePrompt : Option String := none
  baseModel : Option String := none
  vae : Option String := none
  loras : List Lora := []
  seed : Option UInt64 := none
  steps : Option UInt32 := none
  cfg : Option Float := none
  samplerName : Option String := none
  scheduler : Option String := none
  denoise : Option Float := none
  width : Option UInt32 := none
  height : Option UInt32 := none
  deriving Repr

namespace Facts

def isEmpty (f : Facts) : Bool :=
  f.positivePrompt.isNone && f.negativePrompt.isNone && f.baseModel.isNone && f.vae.isNone &&
    f.loras.isEmpty && f.seed.isNone && f.steps.isNone && f.cfg.isNone &&
    f.samplerName.isNone && f.scheduler.isNone && f.denoise.isNone && f.width.isNone &&
    f.height.isNone

/-- Fills open facts from `lower`. -/
def filledFrom (f lower : Facts) : Facts where
  positivePrompt := f.positivePrompt.or lower.positivePrompt
  negativePrompt := f.negativePrompt.or lower.negativePrompt
  baseModel := f.baseModel.or lower.baseModel
  vae := f.vae.or lower.vae
  loras := firstNonEmpty f.loras lower.loras
  seed := f.seed.or lower.seed
  steps := f.steps.or lower.steps
  cfg := f.cfg.or lower.cfg
  samplerName := f.samplerName.or lower.samplerName
  scheduler := f.scheduler.or lower.scheduler
  denoise := f.denoise.or lower.denoise
  width := f.width.or lower.width
  height := f.height.or lower.height

/-- The recipe of an image whose workflow says these facts. -/
def recipe (f : Facts) (family : Family) : Recipe where
  generator := some family
  prompt := f.positivePrompt
  negativePrompt := f.negativePrompt
  model := f.baseModel
  vae := f.vae
  loras := f.loras
  seed := f.seed
  steps := f.steps
  cfg := f.cfg
  sampler := f.samplerName
  scheduler := f.scheduler
  denoise := f.denoise
  width := f.width
  height := f.height

end Facts

end ImageRecipe
