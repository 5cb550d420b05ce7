import ImageRecipe.Dialect.DrawThings
import ImageRecipe.Dialect.DreamStudio
import ImageRecipe.Dialect.EmbeddedWorkflow
import ImageRecipe.Dialect.Gleaning
import ImageRecipe.Dialect.Hosted
import ImageRecipe.Dialect.Invoke
import ImageRecipe.Dialect.ParameterText
import ImageRecipe.Dialect.PromptLine
import ImageRecipe.Dialect.Swarm

/-!
# Reading the dialect of a family

Every family has its dialect; that of an unknown family is gleaned from all
texts together.
-/
namespace ImageRecipe

/-- The recipe that the texts of an image give when they are read as those of a family. -/
def Family.recipeOf (family : Family) (chunks : TextMap) (settings : Settings) :
    Except Fault Recipe :=
  match family with
  | .comfyUi => EmbeddedWorkflow.ofChunks chunks settings
  | .invokeAi => Invoke.ofChunks chunks
  | .a1111 | .forge | .sdNext => ParameterText.ofChunks chunks family
  | .swarmUi => Swarm.ofChunks chunks
  | .midjourney | .niji => PromptLine.ofChunks chunks family
  | .drawThings => DrawThings.ofChunks chunks
  | .dreamStudio => DreamStudio.ofChunks chunks
  | .firefly | .dalle3 => Hosted.ofChunks chunks family
  | .unknown => .ok (Gleaning.recipe (Gleaning.joinedTexts chunks) .unknown)

end ImageRecipe
