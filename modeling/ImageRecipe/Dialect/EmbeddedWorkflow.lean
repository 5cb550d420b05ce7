import ImageRecipe.Image.Chunks
import ImageRecipe.Payload
import ImageRecipe.Tracing.Interpretation

/-!
# Embedded workflows

An image may carry its workflow twice, as it was run and as it was drawn. What
the first does not say is taken from the second.
-/
namespace ImageRecipe.EmbeddedWorkflow

/-- The keyword of the workflow as it was run. -/
def runKeyword : String := "prompt"

/-- The keyword of the workflow as it was drawn. -/
def drawnKeyword : String := "workflow"

/-- Whether an image carries a workflow. -/
def recognised (chunks : TextMap) : Bool :=
  ((chunks.chunkTexts [runKeyword, drawnKeyword]).filterMap Payload.json?).any
    Workflow.isWorkflow

/-- The facts of the workflow under a keyword. -/
def facts? (chunks : TextMap) (settings : Settings) (keyword : String) : Option Facts := do
  let value ← Payload.json? (← chunks.chunk? keyword)
  (Workflow.interpret value settings).toOption

def ofChunks (chunks : TextMap) (settings : Settings) : Except Fault Recipe :=
  let drawn := facts? chunks settings drawnKeyword
  match facts? chunks settings runKeyword, drawn with
  | some run, some drawn => .ok ((run.filledFrom drawn).recipe .comfyUi)
  | some facts, none | none, some facts => .ok (facts.recipe .comfyUi)
  | none, none => .error .noWorkflowPayload

end ImageRecipe.EmbeddedWorkflow
