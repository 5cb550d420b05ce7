import ImageRecipe.Decimal.Binary
import ImageRecipe.Recipe.Basic
import ImageRecipe.Text.Blank

/-!
# Normal recipes

A recipe is brought into its normal form before it is handed out: texts have no
blanks at their ends, an empty text is an open field, and numbers out of their
range are left out.
-/
namespace ImageRecipe

/-- A LoRA with a name; strengths that are no numbers are left out. -/
def Lora.normalized? (lora : Lora) : Option Lora :=
  (Text.nonBlank? lora.name).map fun name =>
    ⟨name, lora.modelStrength.filter Decimal.isFinite, lora.clipStrength.filter Decimal.isFinite⟩

/-- A further setting with a name and a text. -/
def normalizedEntry? (entry : String × String) : Option (String × String) := do
  let name ← Text.nonBlank? entry.1
  let text ← Text.nonBlank? entry.2
  some (name, text)

/-- The further settings; of several with one trimmed name the last in order counts. -/
def TextMap.normalized (map : TextMap) : TextMap :=
  .ofEntries (map.toList.filterMap normalizedEntry?)

namespace Recipe

def normalized (r : Recipe) : Recipe where
  generator := r.generator
  prompt := r.prompt.bind Text.nonBlank?
  negativePrompt := r.negativePrompt.bind Text.nonBlank?
  model := r.model.bind Text.nonBlank?
  vae := r.vae.bind Text.nonBlank?
  loras := r.loras.filterMap Lora.normalized?
  seed := r.seed
  steps := r.steps.filter (· > 0)
  cfg := r.cfg.filter Decimal.isFinite
  sampler := r.sampler.bind Text.nonBlank?
  scheduler := r.scheduler.bind Text.nonBlank?
  denoise := r.denoise.filter fun x => Decimal.isFinite x && 0.0 ≤ x
  width := r.width.filter (· > 0)
  height := r.height.filter (· > 0)
  extra := r.extra.normalized

/-- Sets a size with two positive sides, if neither side is set. -/
def withSize (r : Recipe) (size : Option (UInt32 × UInt32)) : Recipe :=
  match size with
  | none => r
  | some (width, height) =>
    if r.width.isNone && r.height.isNone && width > 0 && height > 0 then
      { r with width := some width, height := some height }
    else r

end Recipe

end ImageRecipe
