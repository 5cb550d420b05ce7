import ImageRecipe.NodeLibrary.Catalogue.Models
import ImageRecipe.NodeLibrary.Catalogue.Sampling
import ImageRecipe.NodeLibrary.Catalogue.Texts
import ImageRecipe.NodeLibrary.Catalogue.Images
import ImageRecipe.NodeLibrary.Catalogue.Wiring

/-!
# The built-in node library
-/
namespace ImageRecipe.NodeLibrary

def builtin : NodeLibrary :=
  ofList (Catalogue.models ++ Catalogue.sampling ++ Catalogue.texts ++ Catalogue.images ++
    Catalogue.wiring)

end ImageRecipe.NodeLibrary
