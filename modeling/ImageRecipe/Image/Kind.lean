import ImageRecipe.Text.Encoding
import ImageRecipe.Text.Search

/-!
# Kinds of image files

A file is told by its first bytes. The extension of its name suggests a kind
too, but only the bytes count.
-/
namespace ImageRecipe

inductive ImageKind where
  | png
  | jpeg
  deriving DecidableEq, Repr

namespace ImageKind

def name : ImageKind → String
  | png => "png"
  | jpeg => "jpeg"

/-- The bytes that a PNG file begins with. -/
def pngSignature : Bytes := [0x89, 0x50, 0x4E, 0x47, 0x0D, 0x0A, 0x1A, 0x0A]

/-- The bytes that a JPEG file begins with: its start marker and the first byte of another. -/
def jpegSignature : Bytes := [0xFF, 0xD8, 0xFF]

/-- The kind that the first bytes show. -/
def ofBytes? (bytes : Bytes) : Option ImageKind :=
  if pngSignature.isPrefixOf bytes then some png
  else if jpegSignature.isPrefixOf bytes then some jpeg
  else none

/-- What stands behind the last point of a file name. -/
def extension? (name : String) : Option String :=
  (Text.splitOnce? (· == '.') name.toList.reverse).map fun halves => String.ofList halves.1.reverse

/-- The kind that the extension of a file name suggests. -/
def ofFileName? (name : String) : Option ImageKind := do
  let ending := ((← extension? name).toList.map Char.toLower)
  if ending == "png".toList then some png
  else if ["jpg", "jpeg", "jpe", "jfif"].any fun e => ending == e.toList then some jpeg
  else none

end ImageKind

end ImageRecipe
