import ImageRecipe.Dialect.Options
import ImageRecipe.Fault
import ImageRecipe.Image.Chunks
import ImageRecipe.Recipe.Basic
import ImageRecipe.Text.Pattern
import ImageRecipe.Workflow.Seed
import ImageRecipe.Xml.Property

/-!
# Prompt lines

A prompt line is a prompt with flags behind it, `prompt --name value`, and the
id of the job that made the image. The flags for the version name the model.
-/
namespace ImageRecipe.PromptLine

open Text

def isJobIdChar (c : Char) : Bool := c.isAlphanum || c == '-'

/-- The label and the id of a job at the front: the id and what follows it. -/
def jobIdAt? (s : List Char) : Option (List Char × List Char) :=
  labelled? "Job ID:" (run? isJobIdChar) s

/-- The id of the job, and the line without it. -/
def withoutJobId (s : List Char) : Option (List Char) × List Char :=
  match cutAt? jobIdAt? s with
  | some (before, id, after) => (some id, before ++ after)
  | none => (none, s)

/-- A flag: its name goes up to the first blank. -/
def flag (s : List Char) : String × List Char :=
  match splitOnce? isBlank s with
  | some (name, value) => (String.ofList name, trim value)
  | none => (String.ofList s, [])

/-- The prompt and the flags of a line. -/
def parts (s : List Char) : List Char × Options :=
  match splitAt "--".toList s with
  | [] => ([], [])
  | prompt :: flags =>
    (trim prompt, ((flags.map trim).filter fun f => !f.isEmpty).map flag)

/-- The flags that are fields of their own. -/
def fieldNames : List String := ["v", "version", "niji", "seed"]

/-- The full name of a flag. -/
def fullName (name : String) : String :=
  if name == "ar" || name == "aspect" then "aspect_ratio"
  else if name == "s" then "stylize"
  else if name == "c" then "chaos"
  else name

/-- The model that the flags for a version name. -/
def model? (flags : Options) : Option String :=
  match flags.last? ["niji"], flags.last? ["v", "version"] with
  | some [], _ => some "Niji"
  | some version, _ => some ("Niji " ++ String.ofList version)
  | none, some (c :: rest) => some ("Midjourney v" ++ String.ofList (c :: rest))
  | none, _ => none

/-- The further settings: the id of the job and the flags that are no fields. -/
def extra (jobId : Option (List Char)) (flags : Options) : TextMap :=
  .ofEntries (
    (jobId.toList.map fun id => ("Job ID", String.ofList id)) ++
    (flags.filter fun f => !fieldNames.contains f.1).map fun f =>
      (fullName f.1, String.ofList f.2))

/-- The recipe of a prompt line. A version of Niji makes Niji the generator. -/
def recipe (line : String) (family : Family) : Recipe :=
  let (jobId, rest) := withoutJobId line.toList
  let (prompt, flags) := parts rest
  { generator := some (if (flags.last? ["niji"]).isSome then .niji else family)
    prompt := some (String.ofList prompt)
    model := model? flags
    seed := (flags.last? ["seed"]).bind Seed.ofChars?
    extra := extra jobId flags }

/-- Whether a text has a flag or the id of a job. -/
def recognised (s : String) : Bool := holds "--" s || holds "Job ID" s

/-- The first text of an image that is a prompt line. -/
def find? (chunks : TextMap) : Option String :=
  let described :=
    (chunks.chunk? packetKeyword).bind fun packet => Xml.property? packet "dc:description"
  (chunks.chunkTexts ["Description", "ImageDescription", "Comment"] ++ described.toList).find?
    recognised

def ofChunks (chunks : TextMap) (family : Family) : Except Fault Recipe :=
  match find? chunks with
  | some line => .ok (recipe line family)
  | none => .error .noMidjourneyPrompt

end ImageRecipe.PromptLine
