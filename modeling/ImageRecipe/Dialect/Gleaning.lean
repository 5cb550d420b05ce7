import ImageRecipe.Decimal.Reading
import ImageRecipe.Recipe.Basic
import ImageRecipe.Text.Class
import ImageRecipe.Text.Pattern
import ImageRecipe.Workflow.Seed

/-!
# Gleaning settings from any text

A last resort: labels and flags of known settings are looked for anywhere in a
text. The first place that fits counts for each setting, also if what stands
there turns out not to be a value.
-/
namespace ImageRecipe.Gleaning

open Text

def digitRun? (s : List Char) : Option (List Char) := (run? isDecimalDigit s).map Prod.fst

/-- A run of digits and points. -/
def decimalRun? (s : List Char) : Option (List Char) :=
  (run? (fun c => isDecimalDigit c || c == '.') s).map Prod.fst

/-- A run of digits, perhaps behind a minus. -/
def signedRun? : List Char → Option (List Char)
  | '-' :: s => (digitRun? s).map ('-' :: ·)
  | s => digitRun? s

/-- Two runs of digits with one character between them. -/
def pairRun? (between : Char) (s : List Char) : Option (List Char × List Char) := do
  let (first, rest) ← run? isDecimalDigit s
  match rest with
  | c :: rest => if c == between then some (first, ← digitRun? rest) else none
  | [] => none

/-- What stands in front of the next comma or line end, without blanks around it. If only blanks
stand there, one of them has to be on the line of the label. -/
def phrase? (s : List Char) : Option (List Char) :=
  match (trimStart s).takeWhile fun c => c != '\n' && c != ',' with
  | [] => if (s.takeWhile isBlank).any (· != '\n') then some [] else none
  | phrase => some (trimEnd phrase)

/-- A number with at most one point, which stands between digits. -/
def version? (s : List Char) : Option (List Char) := do
  let (whole, rest) ← run? isDecimalDigit s
  match rest with
  | '.' :: more => some (whole ++ ((digitRun? more).map ('.' :: ·)).getD [])
  | _ => some whole

/-- What is read behind at least one blank. -/
def behindBlanks? {α : Type} (read : List Char → Option α) (s : List Char) : Option α :=
  (run? isBlank s).bind fun halves => read halves.2

/-- The aspect ratio. -/
def aspectFlag? (s : List Char) : Option (List Char × List Char) :=
  (after? "--ar".toList s).bind (behindBlanks? (pairRun? ':'))

/-- The version of Niji, which may be left out. -/
def nijiFlag? (s : List Char) : Option (Option (List Char)) :=
  (after? "--niji".toList s).map (behindBlanks? version?)

/-- The version of Midjourney. -/
def versionFlag? (s : List Char) : Option (List Char) :=
  (after? "--v".toList s).bind fun rest =>
    behindBlanks? version? ((after? "ersion".toList rest).getD rest)

/-- The model that a flag names. -/
def flaggedModel? (s : List Char) : Option String :=
  match firstAt? nijiFlag? s with
  | some (some version) => some ("Niji " ++ String.ofList version)
  | some none => some "Niji"
  | none => (firstAt? versionFlag? s).map fun version => "Midjourney v" ++ String.ofList version

/-- The first reading behind a label, as a string. -/
def phraseAfter? (label : String) (s : List Char) : Option String :=
  (after? label.toList s).bind fun rest => (phrase? rest).map String.ofList

/-- What a text says somewhere. -/
def recipe (text : String) (family : Family) : Recipe :=
  let s := text.toList
  let size := firstAt? (labelled? "Size:" (pairRun? 'x')) s
  let aspect := (firstAt? aspectFlag? s).map fun ratio =>
    ("aspect_ratio", String.ofList (ratio.1 ++ ':' :: ratio.2))
  { generator := some family
    model := (firstAt? (phraseAfter? "Model:") s).or (flaggedModel? s)
    seed := (firstAt? (labelled? "Seed:" signedRun?) s).bind Seed.ofChars?
    steps := (firstAt? (labelled? "Steps:" digitRun?) s).bind natural32?
    cfg := (firstAt? (labelled? "CFG scale:" decimalRun?) s).bind Decimal.float?
    sampler := firstAt? (phraseAfter? "Sampler:") s
    width := size.bind fun sides => natural32? sides.1
    height := size.bind fun sides => natural32? sides.2
    extra := .ofEntries aspect.toList }

/-- The texts of all chunks by keyword, each on lines of its own. -/
def joinedTexts (chunks : TextMap) : String := "\n".intercalate (chunks.toList.map Prod.snd)

end ImageRecipe.Gleaning
