import ImageRecipe.NodeLibrary.Definition

/-!
# Text encoders, conditioning and strings
-/
namespace ImageRecipe.Catalogue

def promptParams : List Param := [.prompt, .negativePrompt]

/-- An encoder whose prompt is in one widget. -/
def textEncoder (classType : String) (widgets : List String) (text : String) : Definition :=
  (Definition.new classType .conditioning).withRole .source
    |>.withInputs [("clip", "CLIP")]
    |>.withOutputs ["CONDITIONING"]
    |>.withWidgets widgets
    |>.withRules promptParams (.widget text false)

/-- An encoder whose prompt is made of several widgets. -/
def joiningEncoder (classType : String) (widgets texts : List String) : Definition :=
  (Definition.new classType .conditioning).withRole .source
    |>.withInputs [("clip", "CLIP")]
    |>.withOutputs ["CONDITIONING"]
    |>.withWidgets widgets
    |>.withRules promptParams (.extract (.joinWidgets texts))

def fluxGuidance : Definition :=
  (Definition.new "FluxGuidance" .conditioning).withRole .transform
    |>.withInputs [("conditioning", "CONDITIONING")]
    |>.withOutputs ["CONDITIONING"]
    |>.withWidgets ["guidance"]
    |>.withRule .cfg (.widget "guidance" false)
    |>.withRules promptParams (.trace "conditioning")
    |>.passing "conditioning" 0

/-- A node that makes one conditioning out of two; the first one goes through. -/
def conditioningPair (classType first second : String) : Definition :=
  (Definition.new classType .conditioning).withRole .transform
    |>.withInputs [(first, "CONDITIONING"), (second, "CONDITIONING")]
    |>.withOutputs ["CONDITIONING"]
    |>.withRules promptParams (.extract (.joinInputs [first, second]))
    |>.withRule .cfg (.trace first)
    |>.passing first 0

/-- A change to a conditioning that leaves prompts and guidance alone. -/
def conditioningModifier (classType : String) (widgets : List String) : Definition :=
  (Definition.new classType .conditioning).withRole .transform
    |>.withInputs [("conditioning", "CONDITIONING")]
    |>.withOutputs ["CONDITIONING"]
    |>.withWidgets widgets
    |>.withRules [.prompt, .negativePrompt, .cfg] (.trace "conditioning")
    |>.passing "conditioning" 0

def controlNetApplyAdvanced : Definition :=
  (Definition.new "ControlNetApplyAdvanced" .conditioning).withRole .transform
    |>.withInputs [("positive", "CONDITIONING"), ("negative", "CONDITIONING"),
        ("control_net", "CONTROL_NET"), ("image", "IMAGE")]
    |>.withOutputs ["CONDITIONING", "CONDITIONING"]
    |>.withWidgets ["strength", "start_percent", "end_percent"]
    |>.withRules [.prompt, .cfg] (.trace "positive")
    |>.withRule .negativePrompt (.trace "negative")
    |>.passing "positive" 0
    |>.passing "negative" 1

/-- An empty conditioning, behind which no prompt is looked for. -/
def conditioningZeroOut : Definition :=
  (Definition.new "ConditioningZeroOut" .conditioning).withRole .transform
    |>.withInputs [("conditioning", "CONDITIONING")]
    |>.withOutputs ["CONDITIONING"]

def concatenator (classType : String) (widgets : List String) : Definition :=
  (Definition.new classType .text).withRole .transform
    |>.withOutputs ["STRING"]
    |>.withWidgets widgets
    |>.withRules promptParams (.extract .concatenate)

/-- A text that is whatever its user asks for. -/
def textHolder (classType widget : String) : Definition :=
  (Definition.new classType .text).withRole .source
    |>.withOutputs ["STRING"]
    |>.withWidgets [widget]
    |>.withRules Param.all (.literal widget)

def texts : List Definition := [
  textEncoder "CLIPTextEncode" ["text"] "text",
  textEncoder "CLIPTextEncodeSDXLRefiner" ["ascore", "width", "height", "text"] "text",
  textEncoder "BNK_CLIPTextEncodeAdvanced"
    ["text", "token_normalization", "weight_interpretation"] "text",
  textEncoder "CLIPTextEncodeHunyuanDiT" ["bert", "mt5xl"] "bert",
  joiningEncoder "CLIPTextEncodeSDXL"
    ["width", "height", "crop_w", "crop_h", "target_width", "target_height", "text_g", "text_l"]
    ["text_g", "text_l"],
  (joiningEncoder "CLIPTextEncodeFlux" ["clip_l", "t5xxl", "guidance"] ["t5xxl", "clip_l"]).withRule
    .cfg (.widget "guidance" false),
  joiningEncoder "CLIPTextEncodeSD3" ["clip_l", "clip_g", "t5xxl", "empty_padding"]
    ["t5xxl", "clip_g", "clip_l"],
  fluxGuidance,
  conditioningPair "ConditioningCombine" "conditioning_1" "conditioning_2",
  conditioningPair "ConditioningConcat" "conditioning_to" "conditioning_from",
  conditioningPair "ConditioningAverage" "conditioning_to" "conditioning_from",
  conditioningModifier "ConditioningSetArea" ["width", "height", "x", "y", "strength"],
  conditioningModifier "ConditioningSetAreaPercentage" ["width", "height", "x", "y", "strength"],
  conditioningModifier "ConditioningSetMask" ["strength", "set_cond_area"],
  conditioningModifier "ConditioningSetTimestepRange" ["start", "end"],
  conditioningModifier "ControlNetApply" ["strength"],
  controlNetApplyAdvanced,
  conditioningZeroOut,
  concatenator "StringConcatenate" ["string_a", "string_b", "delimiter"],
  concatenator "Text Concatenate" ["delimiter", "clean_whitespace"],
  concatenator "JoinStrings" ["string1", "string2", "delimiter"],
  concatenator "CR Text Concatenate" ["text1", "text2", "separator"],
  textHolder "Text Multiline" "text",
  textHolder "CR Text" "text",
  textHolder "String Literal" "string",
  textHolder "PrimitiveString" "value",
  textHolder "PrimitiveStringMultiline" "value"]

end ImageRecipe.Catalogue
