import ImageRecipe.Fault
import ImageRecipe.Text.Search

/-!
# Settings

What a reader can be told: how far to search a workflow, which text chunks to
keep, and which fallbacks to use. Settings that come from outside are checked
before a reader takes them.
-/
namespace ImageRecipe

/-- The keywords of the text chunks that are kept unless the settings say otherwise. -/
def defaultKeywords : List String :=
  ["parameters", "prompt", "workflow", "Comment", "Description", "ImageDescription",
    "XML:com.adobe.xmp", "invokeai_metadata", "sd-metadata", "Dream", "Software", "Artist",
    "UserComment", "generation_data", "c2pa"]

structure Settings where
  /-- The number of links that a search may follow. -/
  maxDepth : Nat := 64
  /-- The keywords of the text chunks that are kept. -/
  textKeywords : List String := defaultKeywords
  /-- Whether a search goes on through nodes of unknown type. -/
  unknownNodeHeuristics : Bool := true
  /-- Whether the size of the image stands in for a size that was not found. -/
  imageDimensionsFallback : Bool := true
  /-- Whether loose text is searched when nothing else was found. -/
  fallbackOnEmpty : Bool := true
  deriving Repr, DecidableEq

namespace Settings

/-- What is wrong with settings: the depth has to lie between one and the limit. -/
def fault? (settings : Settings) : Option Fault :=
  if settings.maxDepth = 0 then some .depthZero
  else if settings.maxDepth > Fault.depthLimit then some (.depthTooLarge settings.maxDepth)
  else none

theorem fault?_eq_none_iff (settings : Settings) :
    settings.fault? = none ↔ 0 < settings.maxDepth ∧ settings.maxDepth ≤ Fault.depthLimit := by
  unfold fault?
  split
  · simp; omega
  · split <;> simp <;> omega

/-- Settings with which nothing is wrong. -/
def checked (settings : Settings) : Except Fault Settings :=
  match settings.fault? with
  | some fault => .error fault
  | none => .ok settings

/-- Whether a text chunk with this keyword is kept; case does not matter. -/
def isTextKeyword (settings : Settings) (keyword : String) : Bool :=
  settings.textKeywords.any (Text.sameKeyword · keyword)

end Settings

end ImageRecipe
