import ImageRecipe.Text.Numeral

/-!
# What can go wrong

Each cause of failure has a kind and a text. The text of an unreadable input is
shown behind its kind, every other text as it is.
-/
namespace ImageRecipe

inductive FaultKind where
  | unreadable
  | decode
  | convert
  | config
  | graph
  | extract
  | io
  deriving DecidableEq, Repr

inductive Fault where
  /-- The bytes begin like neither a PNG nor a JPEG; the file name, if there is one. -/
  | notAnImage (name : Option String)
  /-- A compressed stream holds nothing. -/
  | emptyStream
  /-- A compressed stream is damaged or incomplete. -/
  | corruptStream
  | invalidUtf8
  /-- The settings are not in their format. -/
  | malformedSettings
  | depthZero
  | depthTooLarge (depth : Nat)
  /-- A reader was asked for with settings that are not valid. -/
  | invalidSettings (cause : Fault)
  | apiNotObject
  | uiWithoutNodes
  | notWorkflow
  | noWorkflowPayload
  | noParametersText
  | parametersNotJson
  | noSwarmParameters
  | noInvokeMetadata
  | noMidjourneyPrompt
  | noDrawThingsJson
  | noDreamStudioPayload
  | noManifest
  /-- A failure that is reported with a text of its own. -/
  | reported (kind : FaultKind) (text : String)
  deriving Repr

namespace Fault

/-- The greatest depth that settings may ask for. -/
def depthLimit : Nat := 128

def kind : Fault → FaultKind
  | notAnImage _ => .unreadable
  | emptyStream => .decode
  | corruptStream => .io
  | invalidUtf8 => .convert
  | malformedSettings | depthZero | depthTooLarge _ | invalidSettings _ => .config
  | apiNotObject | uiWithoutNodes | notWorkflow => .graph
  | noWorkflowPayload | noParametersText | parametersNotJson | noSwarmParameters
  | noInvokeMetadata | noMidjourneyPrompt | noDrawThingsJson | noDreamStudioPayload
  | noManifest => .extract
  | reported kind _ => kind

def text : Fault → String
  | notAnImage (some name) => s!"{name} is not a PNG or JPEG file"
  | notAnImage none => "input is not a PNG or JPEG file"
  | emptyStream => "zlib stream inflated to nothing"
  | corruptStream => "corrupt deflate stream"
  | invalidUtf8 => "Error with utf-8 string convert"
  | malformedSettings => "settings are not valid TOML"
  | depthZero => "max_depth must be greater than 0"
  | depthTooLarge depth =>
    "max_depth must be at most " ++ Text.decimalText depthLimit ++ ", got " ++
      Text.decimalText depth
  | invalidSettings cause => "invalid parser config: " ++ cause.text
  | apiNotObject => "api workflow is not an object"
  | uiWithoutNodes => "ui workflow has no nodes"
  | notWorkflow => "not a comfyui workflow"
  | noWorkflowPayload => "no interpretable comfyui workflow"
  | noParametersText => "no parameters text in the A1111 grammar"
  | parametersNotJson => "parameters chunk is not json"
  | noSwarmParameters => "missing sui_image_params"
  | noInvokeMetadata => "no invokeai metadata chunk"
  | noMidjourneyPrompt => "no midjourney prompt text"
  | noDrawThingsJson => "no draw things json in xmp"
  | noDreamStudioPayload => "no dreamstudio payload"
  | noManifest => "no c2pa manifest"
  | reported _ text => text

/-- The text that is shown. -/
def message (fault : Fault) : String :=
  if fault.kind = .unreadable then "unreadable input: " ++ fault.text else fault.text

/-- What is left of a fault that went through an input-output error: its message. -/
def throughIo (fault : Fault) : Fault := .reported .io fault.message

end Fault

end ImageRecipe
