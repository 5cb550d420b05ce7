import ImageRecipe.NodeLibrary.Definition

/-!
# Reroutes, primitives and switches
-/
namespace ImageRecipe.Catalogue

def reroute (classType : String) : Definition :=
  ((Definition.new classType .routing).withRole .routing).passingFirst

/-- A value that is whatever its user asks for. -/
def primitive (classType widget : String) (furtherWidgets : List String) : Definition :=
  (Definition.new classType .primitive).withRole .source
    |>.withWidgets (widget :: furtherWidgets)
    |>.withRules Param.all (.literal widget)

def switchOf (classType : String) (widgets : List String) (control stem : String) : Definition :=
  ((Definition.new classType .routing).withWidgets widgets).switching control stem

def wiring : List Definition := [
  reroute "Reroute",
  reroute "Any Switch (rgthree)",
  reroute "Reroute (rgthree)",
  primitive "PrimitiveNode" "value" ["control_after_generate"],
  primitive "PrimitiveInt" "value" [],
  primitive "PrimitiveFloat" "value" [],
  primitive "Int Literal" "int" [],
  primitive "Float Literal" "float" [],
  primitive "Seed (rgthree)" "seed" [],
  primitive "CR Seed" "seed" [],
  switchOf "ImpactSwitch" ["select", "sel_mode"] "select" "input",
  switchOf "CR Text Input Switch" ["Input"] "Input" "text",
  switchOf "CR Model Input Switch" ["Input"] "Input" "model",
  switchOf "CR Conditioning Input Switch" ["Input"] "Input" "conditioning",
  switchOf "CR Latent Input Switch" ["Input"] "Input" "latent",
  switchOf "CR Image Input Switch" ["Input"] "Input" "image"]

end ImageRecipe.Catalogue
