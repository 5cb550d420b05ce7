import ImageRecipe.Dialect.Loose
import ImageRecipe.Dialect.ParameterText
import ImageRecipe.Payload
import ImageRecipe.Recipe.Normal
import ImageRecipe.Text.Encoding
import ImageRecipe.Tracing.Interpretation

/-!
# Sidecar files

A file beside an image may hold what the image does not: a workflow, an object
with one as a member, any other object, or a parameter text.
-/
namespace ImageRecipe.Sidecar

/-- The recipe of a workflow. -/
def workflowRecipe? (value : Json) (settings : Settings) : Option Recipe :=
  (Workflow.interpret value settings).toOption.map (·.recipe .comfyUi)

/-- A workflow that stands as a member of an object. -/
def embedded? (value : Json) : Option Json :=
  (["prompt", "workflow"].filterMap value.get?).find? Workflow.isWorkflow

/-- The recipe of a JSON value. -/
def jsonRecipe? (value : Json) (settings : Settings) : Option Recipe :=
  if Workflow.isWorkflow value then workflowRecipe? value settings
  else
    match embedded? value with
    | some workflow =>
      some ((workflowRecipe? workflow settings).getD (Loose.recipe value .unknown))
    | none => if value.isObject then some (Loose.recipe value .unknown) else none

/-- The normal recipe of a sidecar file. One from JSON says something. -/
def recipe? (file : Bytes) (settings : Settings) : Option Recipe :=
  let text := Text.utf8Lossy file
  match Payload.json? text with
  | some value =>
    ((jsonRecipe? value settings).map Recipe.normalized).filter fun r => !r.isEmpty
  | none =>
    if ParameterText.recognised text then
      some (ParameterText.recipe text .a1111).normalized
    else none

end ImageRecipe.Sidecar
