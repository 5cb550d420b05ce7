import ImageRecipe.Json.Scalar
import ImageRecipe.NodeLibrary.Builtin
import ImageRecipe.Recipe.Facts
import ImageRecipe.Tracing.Sinks
import ImageRecipe.Tracing.Walk
import ImageRecipe.Workflow.Forms

/-!
# Interpreting a workflow

Every parameter is searched from the sinks, one search for each, and the values
that are found are read as texts and numbers.
-/
namespace ImageRecipe.Tracing

open Workflow

/-- A string, or the text of a number. -/
def textValue? : Json → Option String
  | .str s => some s
  | .num n => some n.text
  | _ => none

/-- A number below `2 ^ 32` without a fraction. -/
def naturalValue? (value : Json) : Option UInt32 := do
  let n ← Decimal.natural? (← value.looseFloat?)
  if n < UInt32.size then some (UInt32.ofNat n) else none

/-- The LoRA that an entry of a LoRA list is. -/
def loraOfEntry? (members : List (String × Json)) : Option Lora := do
  let name ← (Json.lookup? "lora" members).or (Json.lookup? "name" members)
  let strength := (Json.lookup? "strength" members).bind Json.looseFloat?
  let second := (Json.lookup? "strengthTwo" members).bind Json.looseFloat?
  some ⟨← textValue? name, strength, second.or strength⟩

/-- The LoRA that a loader names; its strengths are in the loader's own widgets. -/
def loraOfLoader? (search : Search) (id : String) (value : Json) : Option Lora := do
  let name ← textValue? value
  let node ← search.graph.node? id
  let own := ownValue? search.library node
  let strength := ["strength_model", "strength"].findSome? own
  some ⟨name, strength.bind Json.looseFloat?, (own "strength_clip").bind Json.looseFloat?⟩

/-- The LoRA that a gathered value is. -/
def lora? (search : Search) (gathered : String × Json) : Option Lora :=
  match gathered.2 with
  | .obj members => loraOfEntry? members
  | value => loraOfLoader? search gathered.1 value

/-- The facts that searches from the given sinks find. -/
def Search.facts (search : Search) (sinks : List Node) : Walk Facts := do
  let positivePrompt ← search.first .prompt textValue? sinks
  let negativePrompt ← search.first .negativePrompt textValue? sinks
  let baseModel ← search.first .model textValue? sinks
  let vae ← search.first .vae textValue? sinks
  let seed ← search.first .seed Seed.ofJson? sinks
  let steps ← search.first .steps naturalValue? sinks
  let cfg ← search.first .cfg Json.looseFloat? sinks
  let samplerName ← search.first .sampler textValue? sinks
  let scheduler ← search.first .scheduler textValue? sinks
  let denoise ← search.first .denoise Json.looseFloat? sinks
  let width ← search.first .width naturalValue? sinks
  let height ← search.first .height naturalValue? sinks
  let gathered ← search.collect .lora sinks
  return {
    positivePrompt, negativePrompt, baseModel, vae, seed, steps, cfg, samplerName, scheduler
    denoise, width, height
    loras := gathered.filterMap (lora? search) }

end Tracing

/-- The facts of a workflow graph. -/
def Workflow.Graph.facts (graph : Graph) (library : NodeLibrary) (settings : Settings) : Facts :=
  let search := Tracing.Search.ofSettings graph library settings
  ((search.facts (Tracing.sinks library graph)).run .empty).1

/-- The facts of a workflow in either of its saved forms. -/
def Workflow.interpret (value : Json) (settings : Settings) : Except Fault Facts :=
  (Graph.ofJson value).map (·.facts .builtin settings)

end ImageRecipe
