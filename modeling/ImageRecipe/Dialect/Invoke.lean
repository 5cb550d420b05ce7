import ImageRecipe.Dialect.Loose
import ImageRecipe.Dialect.Options
import ImageRecipe.Fault
import ImageRecipe.Image.Chunks
import ImageRecipe.Payload

/-!
# The dialects of InvokeAI

A metadata object of its own; before that, an object with the image as a
member; before that, the command line of the run.
-/
namespace ImageRecipe.Invoke

open Text

/-- A model is a name or an object with a name. -/
def modelName? (value : Json) : Option String :=
  match value with
  | .str s => nonBlank? s
  | .obj _ => value.textAt? ["model_name", "name", "key"]
  | _ => none

def lora? (entry : Json) : Option Lora := do
  let name ← modelName? (← (entry.get? "model").or (entry.get? "lora"))
  let weight := entry.floatAt? ["weight"]
  some ⟨name, weight, weight⟩

def metadataRecipe (value : Json) : Recipe where
  generator := some .invokeAi
  prompt := value.textAt? ["positive_prompt", "positive_style_prompt"]
  negativePrompt := value.textAt? ["negative_prompt", "negative_style_prompt"]
  model := (value.get? "model").bind modelName?
  vae := (value.get? "vae").bind modelName?
  loras := (value.itemsAt "loras").filterMap lora?
  seed := value.seedAt? ["seed"]
  steps := value.natural32At? ["steps"]
  cfg := value.floatAt? ["cfg_scale"]
  scheduler := value.textAt? ["scheduler"]
  denoise := value.floatAt? ["denoising_strength", "strength"]
  width := value.natural32At? ["width"]
  height := value.natural32At? ["height"]
  extra := value.textsAt ["generation_mode", "app_version"]

/-- The prompt, and the negative part that stands in brackets at its end. -/
def bracketed (prompt : List Char) : List Char × Option (List Char) :=
  let prompt := trim prompt
  let found := match prompt.reverse with
    | ']' :: rest => splitOnce? (· == '[') rest
    | _ => none
  match found with
  | none => (prompt, none)
  | some (inner, before) =>
    match trim inner.reverse with
    | [] => (prompt, none)
    | negative => (trim before.reverse, some negative)

/-- Sets both prompts from one with brackets. -/
def withPrompt (r : Recipe) (prompt : List Char) : Recipe :=
  let (positive, negative) := bracketed prompt
  { r with
    prompt := some (String.ofList positive)
    negativePrompt := negative.map String.ofList }

/-- A prompt is a text or a list of parts with a text each. -/
def imagePrompt? : Json → Option String
  | .str s => some s
  | .arr parts =>
    match parts.filterMap (·.textAt? ["prompt"]) with
    | [] => none
    | texts => some (" ".intercalate texts)
  | _ => none

def imageRecipe (value : Json) : Recipe :=
  let image := (value.get? "image").getD .null
  let fields : Recipe := {
    generator := some .invokeAi
    model := value.textAt? ["model_weights"]
    seed := image.seedAt? ["seed"]
    steps := image.natural32At? ["steps"]
    cfg := image.floatAt? ["cfg_scale"]
    sampler := image.textAt? ["sampler"]
    denoise := image.floatAt? ["strength"]
    width := image.natural32At? ["width"]
    height := image.natural32At? ["height"] }
  match (image.get? "prompt").bind imagePrompt? with
  | some prompt => withPrompt fields prompt.toList
  | none => fields

/-- The prompt, which may be quoted, and the flags behind it. -/
def commandParts (line : List Char) : List Char × List Char :=
  let quoted := match line with
    | '"' :: rest => splitOnce? (· == '"') rest
    | _ => none
  match quoted with
  | some halves => halves
  | none =>
    match cut? " -".toList line with
    | some (before, after) => (before, ' ' :: '-' :: after)
    | none => (line, [])

/-- Every word with the word behind it. -/
def flagOptions (flags : List Char) : Options :=
  let flagWords := words flags
  (flagWords.map String.ofList).zip (flagWords.drop 1)

def commandRecipe (line : String) : Recipe :=
  let (prompt, flags) := commandParts (trim line.toList)
  let options := flagOptions flags
  let fields : Recipe := {
    generator := some .invokeAi
    model := options.lastText? ["-m", "--model"]
    seed := (options.last? ["-S", "--seed"]).bind Seed.ofChars?
    steps := (options.last? ["-s", "--steps"]).bind natural32?
    cfg := (options.last? ["-C", "--cfg_scale"]).bind Decimal.float?
    sampler := options.lastText? ["-A", "--sampler"]
    denoise := (options.last? ["-f", "--strength"]).bind Decimal.float?
    width := (options.last? ["-W", "--width"]).bind natural32?
    height := (options.last? ["-H", "--height"]).bind natural32? }
  withPrompt fields prompt

/-- The keyword of the metadata object. -/
def metadataKeyword : String := "invokeai_metadata"

/-- The keyword of the object with the image. -/
def imageKeyword : String := "sd-metadata"

/-- The keyword of the command line. -/
def commandKeyword : String := "Dream"

/-- Whether one of the texts is written in one of the dialects. -/
def recognised (chunks : TextMap) : Bool :=
  let json? (keyword : String) : Option Json := (chunks.chunk? keyword).bind Payload.json?
  (json? metadataKeyword).any Json.isObject ||
    (json? imageKeyword).any (fun v =>
      (v.get? "image").isSome || (v.get? "model_weights").isSome) ||
    (chunks.chunk? commandKeyword).any fun line => (nonBlank? line).isSome

/-- The newest dialect that is there counts. -/
def ofChunks (chunks : TextMap) : Except Fault Recipe :=
  match (chunks.chunk? metadataKeyword).bind Payload.json? with
  | some value => .ok (metadataRecipe value)
  | none =>
    match (chunks.chunk? imageKeyword).bind Payload.json? with
    | some value => .ok (imageRecipe value)
    | none =>
      match chunks.chunk? commandKeyword with
      | some line => .ok (commandRecipe line)
      | none => .error .noInvokeMetadata

end ImageRecipe.Invoke
