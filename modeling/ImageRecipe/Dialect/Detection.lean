import ImageRecipe.Dialect.EmbeddedWorkflow
import ImageRecipe.Dialect.Invoke
import ImageRecipe.Dialect.ParameterText
import ImageRecipe.Dialect.Swarm

/-!
# Telling the family

The dialects that are told by their form come first, then the platforms whose
name stands somewhere. The first that fits counts.
-/
namespace ImageRecipe.Detection

/-- The keywords of the chunks that name a tool. -/
def markKeywords : List String :=
  ["Software", "Description", "ImageDescription", "Comment", "Artist", packetKeyword]

/-- Whether a chunk that may name a tool holds `mark`, which is in lower case. -/
def hasMark (chunks : TextMap) (mark : String) : Bool :=
  (chunks.chunkTexts markKeywords).any (Text.mentions mark)

/-- Whether the content manifest holds `mark`, which is in lower case. -/
def manifestHas (chunks : TextMap) (mark : String) : Bool :=
  (chunks.chunk? manifestKeyword).any (Text.mentions mark)

/-- The platform whose marks an image bears. -/
def platform (chunks : TextMap) : Family :=
  if hasMark chunks "niji" then .niji
  else if hasMark chunks "midjourney" || (hasMark chunks "job id:" && hasMark chunks " --") then
    .midjourney
  else if hasMark chunks "draw things" then .drawThings
  else if hasMark chunks "dreamstudio" then .dreamStudio
  else if manifestHas chunks "openai" || manifestHas chunks "dall" then .dalle3
  else if manifestHas chunks "firefly" || manifestHas chunks "adobe" then .firefly
  else .unknown

/-- The family of the tool that made an image. -/
def family (chunks : TextMap) : Family :=
  if EmbeddedWorkflow.recognised chunks then .comfyUi
  else if Invoke.recognised chunks then .invokeAi
  else if Swarm.recognised chunks then .swarmUi
  else
    match ParameterText.find? chunks with
    | some s => ParameterText.family s
    | none => platform chunks

end ImageRecipe.Detection
