import ImageRecipe.Image.Exif

/-!
# Readers of tags

How texts are got out of an Exif block and out of a content manifest can be
chosen. The built-in reader knows the common Exif tags and takes from a
manifest the runs of printable characters.
-/
namespace ImageRecipe

structure TagReader where
  /-- The texts of an Exif block by name. -/
  exif : Bytes → TextMap
  /-- The text of a content manifest. -/
  manifest : Bytes → Option String

namespace Manifest

def isPrintable (b : UInt8) : Bool := 0x20 ≤ b && b ≤ 0x7E

/-- The shortest run that is kept. -/
def minRun : Nat := 4

/-- The pieces between bytes that cannot be printed. -/
def printableRuns : Bytes → List Bytes
  | [] => [[]]
  | b :: rest =>
    if isPrintable b then
      match printableRuns rest with
      | [] => [[b]]
      | run :: runs => (b :: run) :: runs
    else [] :: printableRuns rest

/-- The long runs of printable characters, each on a line of its own. -/
def text? (manifest : Bytes) : Option String :=
  match (printableRuns manifest).filter (minRun ≤ ·.length) with
  | [] => none
  | runs => some ("\n".intercalate (runs.map Text.latin1))

end Manifest

/-- The built-in reader. -/
def TagReader.builtin : TagReader := ⟨Exif.read, Manifest.text?⟩

end ImageRecipe
