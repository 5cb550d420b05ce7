import ImageRecipe.Dialect.Detection
import ImageRecipe.Dialect.Extraction
import ImageRecipe.Image.Content
import ImageRecipe.Recipe.Normal
import ImageRecipe.Sidecar

/-!
# Reading the recipe of an image

A reader tells the family from the texts of an image, reads them in the
dialect of the family and gleans from them what it can if that gives nothing.
Reading never fails as a whole: the outcome says how far it got, and a note
says why it had to fall back.
-/
namespace ImageRecipe

/-- How far reading got. -/
inductive Status where
  /-- Some field of the recipe was found. -/
  | parsed
  /-- The image was read, but nothing was found in it. -/
  | noMetadata
  /-- The file is no image of a known kind. -/
  | unreadable
  deriving DecidableEq, Repr

namespace Status

def all : List Status := [parsed, noMetadata, unreadable]

def name : Status → String
  | parsed => "parsed"
  | noMetadata => "no_metadata"
  | unreadable => "unreadable"

def ofName? (name : String) : Option Status := all.find? (·.name == name)

/-- The status of a recipe that was found. -/
def ofRecipe (r : Recipe) : Status := if r.isEmpty then noMetadata else parsed

end Status

structure Outcome where
  recipe : Recipe
  status : Status
  /-- The family that was told from the texts. -/
  family : Family
  /-- Why reading had to fall back, if it had to. -/
  note : Option String

namespace Outcome

/-- The outcome for an image without texts. -/
def nothing : Outcome := ⟨{}, .noMetadata, .unknown, none⟩

/-- The outcome for a file that is no image. -/
def unreadable (fault : Fault) : Outcome := ⟨{}, .unreadable, .unknown, some fault.message⟩

def isParsed (outcome : Outcome) : Bool := outcome.status == .parsed

/-- Fills open fields from another recipe, which may turn nothing into something. -/
def filledFrom (outcome : Outcome) (lower : Recipe) : Outcome :=
  let recipe := outcome.recipe.filledFrom lower
  { outcome with
    recipe
    status := if outcome.status = .noMetadata then .ofRecipe recipe else outcome.status }

/-- The size of the image stands in for a size that was not found. -/
def withSize (outcome : Outcome) (size : Option (UInt32 × UInt32)) : Outcome :=
  { outcome with recipe := outcome.recipe.withSize size }

end Outcome

/-- A reader has settings with which nothing is wrong. -/
structure Reader where
  settings : Settings
  tags : TagReader
  valid : settings.fault? = none

namespace Reader

/-- A reader with the given settings, of which the depth may be overridden. -/
def new (settings : Settings) (depth : Option Nat) (tags : TagReader) : Except Fault Reader :=
  let settings := { settings with maxDepth := depth.getD settings.maxDepth }
  match h : settings.fault? with
  | some fault => .error (.invalidSettings fault)
  | none => .ok ⟨settings, tags, h⟩

/-- What is gleaned from texts in which a dialect was not found or said nothing. -/
def gleaned (family : Family) (chunks : TextMap) : Recipe :=
  Gleaning.recipe (Gleaning.joinedTexts chunks) family

/-- The recipe of texts that were told to be of a family, and a note if reading fell back. -/
def recipeOf (reader : Reader) (family : Family) (chunks : TextMap) : Recipe × Option String :=
  match family.recipeOf chunks reader.settings with
  | .ok r =>
    if family = .unknown || !r.isEmpty || !reader.settings.fallbackOnEmpty then (r, none)
    else (gleaned family chunks, some (family.name ++ " payload empty, regex fallback used"))
  | .error fault => (gleaned family chunks, some fault.message)

/-- Reads the texts of an image. -/
def readChunks (reader : Reader) (chunks : TextMap) : Outcome :=
  if chunks.isEmpty then .nothing
  else
    let family := Detection.family chunks
    let (found, note) := reader.recipeOf family chunks
    let recipe := found.normalized
    ⟨recipe, .ofRecipe recipe, family, note⟩

/-- The recipe of a sidecar file, if there is one. -/
def sidecar? (reader : Reader) (sidecar : Option Bytes) : Option Recipe :=
  sidecar.bind fun file => Sidecar.recipe? file reader.settings

/-- Reads an image file with the sidecar file beside it. What the image says counts for more than
what the sidecar says. -/
def read (reader : Reader) (file : Bytes) (name : Option String) (sidecar : Option Bytes) :
    Outcome :=
  match ImageContent.ofBytes file name reader.settings reader.tags with
  | .error fault => .unreadable fault
  | .ok content =>
    let embedded := reader.readChunks content.chunks
    let outcome := match reader.sidecar? sidecar with
      | some lower => embedded.filledFrom lower
      | none => embedded
    if reader.settings.imageDimensionsFallback then outcome.withSize content.size else outcome

end Reader

end ImageRecipe
