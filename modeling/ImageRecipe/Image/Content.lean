import ImageRecipe.Image.Jpeg
import ImageRecipe.Image.Png

/-!
# What an image file carries

The texts of a file that the settings ask for, and the size of the image. A
damaged file gives what stands before the damage; only a file of another kind
cannot be read.
-/
namespace ImageRecipe

structure ImageContent where
  kind : ImageKind
  chunks : TextMap
  size : Option (UInt32 × UInt32)

/-- Reads the texts of an image. The name is used to report a file of another kind. -/
def ImageContent.ofBytes (file : Bytes) (name : Option String) (settings : Settings)
    (tags : TagReader) : Except Fault ImageContent :=
  match ImageKind.ofBytes? file with
  | none => .error (.notAnImage name)
  | some .png => .ok ⟨.png, settings.keptChunks (Png.texts tags file), Png.size? file⟩
  | some .jpeg => .ok ⟨.jpeg, settings.keptChunks (Jpeg.texts tags file), Jpeg.size? file⟩

end ImageRecipe
