import ImageRecipe.Settings
import ImageRecipe.TextMap

/-!
# Text chunks

The texts that an image carries, by keyword. Of several with one keyword the
first is kept, and only keywords that the settings ask for are kept at all.
Keywords are looked up without regard to case.
-/
namespace ImageRecipe

/-- The keyword of the text in a content manifest. -/
def manifestKeyword : String := "c2pa"

/-- The keyword of the metadata packet in XML. -/
def packetKeyword : String := "XML:com.adobe.xmp"

/-- The keyword of a plain comment. -/
def commentKeyword : String := "Comment"

/-- The kept texts of a list of texts with their keywords. -/
def Settings.keptChunks (settings : Settings) (found : List (String × String)) : TextMap :=
  (found.filter fun f => f.1 != "" && settings.isTextKeyword f.1).foldl
    (fun chunks f => TextMap.insertNew chunks f.1 f.2) ∅

namespace TextMap

/-- The text of a keyword: under its exact spelling, else under the first that differs in case
only. -/
def chunk? (chunks : TextMap) (keyword : String) : Option String :=
  match chunks[keyword]? with
  | some text => some text
  | none => (chunks.toList.find? fun c => Text.sameKeyword c.1 keyword).map (·.2)

/-- The texts of the keywords that are there, in the order of the keywords. -/
def chunkTexts (chunks : TextMap) (keywords : List String) : List String :=
  keywords.filterMap chunks.chunk?

end TextMap

end ImageRecipe
