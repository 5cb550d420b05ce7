import ImageRecipe.Recipe.Family
import ImageRecipe.TextMap

/-!
# Recipes

A recipe says how an image was made. Every field may be open; an open field
means that nothing was found, not that there was nothing. Recipes from several
places are put together by filling the open fields of the better one.
-/
namespace ImageRecipe

/-- A LoRA that was applied, and how strongly. -/
structure Lora where
  name : String
  modelStrength : Option Float := none
  clipStrength : Option Float := none
  deriving Repr

structure Recipe where
  generator : Option Family := none
  prompt : Option String := none
  negativePrompt : Option String := none
  model : Option String := none
  vae : Option String := none
  loras : List Lora := []
  seed : Option UInt64 := none
  steps : Option UInt32 := none
  cfg : Option Float := none
  sampler : Option String := none
  scheduler : Option String := none
  denoise : Option Float := none
  width : Option UInt32 := none
  height : Option UInt32 := none
  /-- Further settings by their name. -/
  extra : TextMap := ∅

/-- The first of two lists unless it is empty. -/
def firstNonEmpty {α : Type} (a b : List α) : List α := if a.isEmpty then b else a

namespace Recipe

/-- The recipe of which only the family is known. -/
def ofFamily (family : Family) : Recipe := { generator := some family }

/-- Whether no field is set; the family and the further settings do not count. -/
def isEmpty (r : Recipe) : Bool :=
  r.prompt.isNone && r.negativePrompt.isNone && r.model.isNone && r.vae.isNone &&
    r.loras.isEmpty && r.seed.isNone && r.steps.isNone && r.cfg.isNone && r.sampler.isNone &&
    r.scheduler.isNone && r.denoise.isNone && r.width.isNone && r.height.isNone

/-- Fills open fields from `lower`; of the further settings those that are not there yet. -/
def filledFrom (r lower : Recipe) : Recipe where
  generator := r.generator.or lower.generator
  prompt := r.prompt.or lower.prompt
  negativePrompt := r.negativePrompt.or lower.negativePrompt
  model := r.model.or lower.model
  vae := r.vae.or lower.vae
  loras := firstNonEmpty r.loras lower.loras
  seed := r.seed.or lower.seed
  steps := r.steps.or lower.steps
  cfg := r.cfg.or lower.cfg
  sampler := r.sampler.or lower.sampler
  scheduler := r.scheduler.or lower.scheduler
  denoise := r.denoise.or lower.denoise
  width := r.width.or lower.width
  height := r.height.or lower.height
  extra := r.extra.filledFrom lower.extra

/-- Sets both sides, if there is a size to set. -/
def withSides (r : Recipe) : Option (UInt32 × UInt32) → Recipe
  | some (width, height) => { r with width := some width, height := some height }
  | none => r

end Recipe

end ImageRecipe
