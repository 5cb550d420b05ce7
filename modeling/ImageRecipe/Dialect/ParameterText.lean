import ImageRecipe.Dialect.ParameterText.LoraTag
import ImageRecipe.Dialect.ParameterText.Settings
import ImageRecipe.Image.Chunks
import ImageRecipe.Recipe.Normal
import ImageRecipe.Text.Size
import ImageRecipe.Workflow.Seed

/-!
# Parameter texts

A parameter text is a prompt, a negative prompt behind a label and a block of
settings that begins with the number of steps, each on lines of its own. All of
it may also stand on one line, with commas between the parts.
-/
namespace ImageRecipe.ParameterText

open Text

/-- Whether the steps with their number stand at the front. -/
def beginsSteps (s : List Char) : Bool :=
  (labelled? "Steps:" (run? isDecimalDigit) s).isSome

/-- What stands before the first steps field, and the field with what follows. The field begins a
line or stands behind a comma, which then belongs to it. -/
def cutAtSteps? (atLineStart : Bool) : List Char → Option (List Char × List Char)
  | [] => none
  | c :: s =>
    if (atLineStart && beginsSteps (c :: s)) || (c == ',' && beginsSteps (trimStart s)) then
      some ([], c :: s)
    else (cutAtSteps? (c == '\n') s).map fun halves => (c :: halves.1, halves.2)

/-- Whether a text has a steps field. -/
def recognised (s : String) : Bool := (cutAtSteps? true s.toList).isSome

/-- A version that begins with an f and a digit. -/
def forgeVersion? (s : List Char) : Option Unit :=
  match s with
  | 'f' :: c :: _ => if isDecimalDigit c then some () else none
  | _ => none

/-- Whether the settings are those that only Forge writes. -/
def marksForge (s : String) : Bool :=
  (firstAt? (labelled? "Version:" forgeVersion?) s.toList).isSome || holds "Hires upscale" s

/-- The family whose marks a parameter text bears. -/
def family (s : String) : Family :=
  if holds "App: SD.Next" s then .sdNext
  else if marksForge s then .forge
  else .a1111

/-- The first text chunk that is a parameter text. -/
def find? (chunks : TextMap) : Option String :=
  (chunks.chunkTexts ["parameters", "UserComment"]).find? recognised

/-- The last line that satisfies `p` with the lines from it on, behind those before it. -/
def cutAtLast? (p : List Char → Bool) :
    List (List Char) → Option (List (List Char) × List (List Char))
  | [] => none
  | line :: rest =>
    match cutAtLast? p rest with
    | some (before, found) => some (line :: before, found)
    | none => if p line then some ([], line :: rest) else none

/-- Whether a line begins with a label, behind blanks. -/
def beginsWithLabel (label : String) (line : List Char) : Bool :=
  beginsWith label.toList (trimStart line)

/-- Commas and blanks, which separate the parts on one line. -/
def isSeparator (c : Char) : Bool := c == ',' || isBlank c

/-- A line that holds a steps field: what stands before it, without the separators at its end,
and the field with what follows. -/
def cutLine? (line : List Char) : Option (List Char × List Char) :=
  (cutAtSteps? true line).map fun halves =>
    (dropEndWhile isSeparator halves.1, halves.2.dropWhile isSeparator)

/-- The lines of the prompts, and the block of settings. The block begins with the last line that
begins with the steps, or else inside the last line. -/
def parts (lines : List (List Char)) : List (List Char) × List Char :=
  match cutAtLast? (beginsWithLabel "Steps:") lines with
  | some (before, block) => (before, List.intercalate ", ".toList block)
  | none =>
    match lines.getLast?.bind cutLine? with
    | some ([], block) => (lines.dropLast, block)
    | some (head, block) => (lines.dropLast ++ [head], block)
    | none => (lines, [])

def joinedLines (lines : List (List Char)) : List Char := List.intercalate ['\n'] lines

/-- The label of the negative prompt. -/
def negativeLabel : String := "Negative prompt:"

/-- The prompt and the negative prompt. -/
def prompts (lines : List (List Char)) : List Char × Option (List Char) :=
  let isPositive (line : List Char) : Bool := !beginsWithLabel negativeLabel line
  let negative := joinedLines (lines.dropWhile isPositive)
  (joinedLines (lines.takeWhile isPositive),
    (after? negativeLabel.toList (trimStart negative)).map trim)

/-- The keys, in lower case, whose values are fields of their own and nothing else. -/
def fieldKeys : List String :=
  ["steps", "sampler", "schedule type", "scheduler", "cfg scale", "seed", "size", "model", "vae",
    "denoising strength"]

/-- The names in a list of LoRAs with their hashes. -/
def hashedLoras (value : List Char) : List Lora :=
  (split (· == ',') value).filterMap fun entry => do
    let (name, _) ← splitOnce? (· == ':') entry
    (nonBlank? (String.ofList name)).map fun name => { name }

/-- The last size that can be read. -/
def lastSize? (options : Options) : Option (UInt32 × UInt32) :=
  options.reverse.findSome? fun o => if o.1 == "size" then size? o.2 else none

/-- The recipe of the settings in a block. -/
def settingsRecipe (block : List Char) (family : Family) : Recipe :=
  let written := settings block
  let options : Options := written.map fun s => (foldedKey s.1, s.2)
  let fields : Recipe := {
    generator := some family
    loras := ((options.last? ["lora hashes"]).map hashedLoras).getD []
    model := options.lastText? ["model"]
    vae := options.lastText? ["vae"]
    seed := (options.last? ["seed"]).bind Seed.ofChars?
    steps := (options.last? ["steps"]).bind natural32?
    cfg := ((options.last? ["cfg scale"]).bind Decimal.float?).or
      ((options.last? ["distilled cfg scale"]).bind Decimal.float?)
    sampler := options.lastText? ["sampler"]
    scheduler := options.lastText? ["schedule type", "scheduler"]
    denoise := (options.last? ["denoising strength"]).bind Decimal.float?
    extra := .ofEntries ((written.filter fun s => !fieldKeys.contains (foldedKey s.1)).map
      fun s => (s.1, String.ofList s.2)) }
  fields.withSides (lastSize? options)

/-- The recipe of a parameter text. LoRA tags in the prompt count for more than a list of
hashes. -/
def recipe (s : String) (family : Family) : Recipe :=
  let (promptLines, block) := parts (lines (trim s.toList))
  let (prompt, negative) := prompts promptLines
  let fields := settingsRecipe block family
  { fields with
    prompt := some (String.ofList prompt)
    negativePrompt := negative.map String.ofList
    loras := firstNonEmpty (loraTags prompt) fields.loras }

def ofChunks (chunks : TextMap) (family : Family) : Except Fault Recipe :=
  match find? chunks with
  | some s => .ok (recipe s family)
  | none => .error .noParametersText

end ImageRecipe.ParameterText
