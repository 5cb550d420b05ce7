import ImageRecipe.Json.Printer
import ImageRecipe.NodeLibrary.Definition
import ImageRecipe.Settings
import ImageRecipe.Text.Blank
import ImageRecipe.Workflow.Graph
import ImageRecipe.Workflow.Seed

/-!
# What to do at a node

A search for a parameter starts at some node and follows links towards their
sources. What happens at one node is decided here, without the walk: the plan
for a node says which values are there already, which links are to be followed
and at what depth, and what is made of the results. Everything in a plan comes
from the node itself and its description, except that the control of a switch
may be read behind a link.
-/
namespace ImageRecipe.Tracing

open Workflow

/-- What a search is carried out on, and how far it may go. -/
structure Search where
  graph : Graph
  library : NodeLibrary
  /-- The greatest depth at which a node is asked. -/
  maxDepth : Nat
  /-- Whether nodes of unknown type are asked at all. -/
  heuristics : Bool

namespace Search

/-- A search under the given settings; the depth is brought between one and the limit. -/
def ofSettings (graph : Graph) (library : NodeLibrary) (settings : Settings) : Search where
  graph := graph
  library := library
  maxDepth := max 1 (min settings.maxDepth Fault.depthLimit)
  heuristics := settings.unknownNodeHeuristics

/-- The greatest number of nodes on one path. -/
def maxPath (search : Search) : Nat := 2 * search.maxDepth

end Search

/-- An answer that is there already, or a link to be followed to a node at some depth. -/
inductive Step where
  | answer (value : Option Json)
  | follow (link : Link) (depth : Nat)
  deriving Repr

inductive Plan where
  | single (step : Step)
  /-- Notes the values of the entries, then takes the answer of the last step. -/
  | gather (entries : List Step) (onward : Step)
  /-- Joins the distinct texts of the parts. -/
  | join (separator : String) (parts : List Step)
  /-- Multiplies a number and rounds it. -/
  | scale (factor : Float) (base : Step)
  deriving Repr

namespace Step

def nothing : Step := .answer none

/-- The step to an input: its literal, or the source of its link one level further. -/
def toInput (node : Node) (name : String) (depth : Nat) : Step :=
  match node.input? name with
  | some (.link target) => .follow target (depth + 1)
  | _ => .answer (node.literal? name)

end Step

namespace Plan

def nothing : Plan := .single .nothing

end Plan

/-- The positional value of a widget, unless it is null. -/
def positional? (library : NodeLibrary) (node : Node) (name : String) : Option Json := do
  let definition ← library.get? node.classType
  let index ← definition.widgetIndex? name
  node.widgets[index]?.filter fun value => !value.isNull

/-- A widget's own value: the literal of its input, else the positional one. -/
def ownValue? (library : NodeLibrary) (node : Node) (name : String) : Option Json :=
  match node.literal? name with
  | some value => some value
  | none => positional? library node name

/-- The step to a widget, which may have been made into a linked input. -/
def Step.toWidget (library : NodeLibrary) (node : Node) (name : String) (depth : Nat) : Step :=
  match node.link? name with
  | some target => .follow target (depth + 1)
  | none => .answer (ownValue? library node name)

/-- The step through the input that stands in for an output slot. -/
def Step.through (definition : Option Definition) (node : Node) (slot : Option UInt32)
    (depth : Nat) : Step :=
  let input := match definition with
    | some d => d.bypassInput? node slot
    | none => node.firstLink?.map (·.input)
  match input with
  | some input => .toInput node input depth
  | none => .nothing

/-- The literal inputs in which plain values are kept. -/
def valueInputs : List String := ["value", "int", "float", "seed", "select", "Input"]

/-- The plain value that a node holds: its first value input, else its first widget. -/
def plainValue? (node : Node) : Option Json :=
  let held := match valueInputs.findSome? node.literal? with
    | some value => some value
    | none => node.widgets.head?
  held.filter Json.isScalar

/-- The plain value at `source` or further along first links, after at most `steps` nodes. -/
def plainValueBehind? (graph : Graph) : Nat → String → Option Json
  | 0, _ => none
  | steps + 1, source =>
    match graph.node? source with
    | none => none
    | some node =>
      match plainValue? node with
      | some value => some value
      | none =>
        match node.firstLink? with
        | some link => plainValueBehind? graph steps link.target.source
        | none => none

/-- The value of a switch's control. -/
def control? (search : Search) (node : Node) (name : String) (depth : Nat) : Option Json :=
  match node.link? name with
  | some target => plainValueBehind? search.graph (search.maxDepth - depth) target.source
  | none => ownValue? search.library node name

/-- A selection is an integer or a text that reads as one. -/
def selection? (value : Json) : Option Int :=
  match value.integer? with
  | some i => some i
  | none => value.string?.bind fun s => Text.integer64? (Text.trim s.toList)

/-- The number of the branch that an input is. -/
def branchNumber? (stem : String) (input : String) : Option Int :=
  (Text.after? stem.toList input.toList).bind Text.integer64?

/-- The branches of a switch by number: its numbered inputs, except those that hold null. -/
def branches (stem : String) (node : Node) : List (Int × String) :=
  let numbered := node.inputs.filterMap fun (name, input) =>
    match input with
    | .literal .null => none
    | _ => (branchNumber? stem name).map fun i => (i, name)
  numbered.mergeSort fun a b => a.1 ≤ b.1

/-- The branch that is let through: the selected one, else the first. -/
def branch? (switch : Switch) (node : Node) (control : Option Json) : Option String :=
  let branches := branches switch.stem node
  let selected := (control.bind selection?).bind fun i => branches.find? (·.1 == i)
  (selected <|> branches.head?).map (·.2)

/-- The step through a switch. -/
def Step.throughSwitch (search : Search) (switch : Switch) (node : Node) (depth : Nat) : Step :=
  match branch? switch node (control? search node switch.control depth) with
  | some input => .toInput node input depth
  | none => .nothing

/-- The separator of joined texts where the node has none of its own. -/
def defaultSeparator : String := ", "

/-- The inputs that a concatenating node may have, in the order of their texts. -/
def textInputs : List String :=
  ["string_a", "string_b", "string_c", "string_d", "text_a", "text_b", "text_c", "text_d",
    "string1", "string2", "text1", "text2"]

/-- The separator of a concatenating node. -/
def separator (library : NodeLibrary) (node : Node) : String :=
  let own := ["delimiter", "separator"].findSome? (ownValue? library node)
  (own.bind Json.string?).getD defaultSeparator

/-- Whether an entry of a LoRA list has a name and is not switched off. -/
def isEnabledLora (entry : Json) : Bool :=
  let named := match (entry.get? "lora").bind Json.string? with
    | some name => name != "" && name != "None"
    | none => false
  named && (entry.get? "on").bind Json.bool? != some false

/-- The enabled entries of a LoRA list: those in literal inputs, then those in widgets. -/
def enabledLoras (node : Node) : List Json :=
  let literals := node.inputs.filterMap fun (name, input) =>
    match input with
    | .literal value => if Text.beginsWith "lora_".toList name.toList then some value else none
    | .link _ => none
  (literals ++ node.widgets).filter isEnabledLora

/-- The factor of a scaling node. -/
def scaleFactor (library : NodeLibrary) (node : Node) : Float :=
  ((ownValue? library node "scale_by").bind Json.float?).getD 1.0

/-- The plan for a value that an extractor reads. -/
def extractorPlan (library : NodeLibrary) (node : Node) (depth : Nat) : Extractor → Plan
  | .joinWidgets names => .join defaultSeparator (names.map (.toWidget library node · depth))
  | .joinInputs names => .join defaultSeparator (names.map (.toInput node · depth))
  | .concatenate =>
    .join (separator library node) (textInputs.map (.toWidget library node · depth))
  | .loraList =>
    .gather ((enabledLoras node).map fun entry => .answer (some entry))
      (.toInput node "model" depth)
  | .scaledSize => .scale (scaleFactor library node) (.toInput node "samples" depth)

/-- The plan for a parameter that has a rule. -/
def rulePlan (library : NodeLibrary) (definition : Definition) (node : Node)
    (slot : Option UInt32) (depth : Nat) : Rule → Plan
  | .widget name false => .single (.toWidget library node name depth)
  | .widget name true =>
    .gather [.toWidget library node name depth] (.through (some definition) node slot depth)
  | .trace input => .single (.toInput node input depth)
  | .literal name => .single (.answer (ownValue? library node name))
  | .extract extractor => extractorPlan library node depth extractor

/-- The plan for a node whose description has no rule for the parameter. Passing through costs
no depth. -/
def unruledPlan (search : Search) (definition : Definition) (node : Node) (slot : Option UInt32)
    (depth : Nat) : Plan :=
  match definition.switch with
  | some switch => .single (.throughSwitch search switch node depth)
  | none =>
    if definition.passThrough.isEmpty then .nothing
    else .single (.through (some definition) node slot (depth - 1))

/-- A seed with an offset, from the literal inputs of a node of unknown type. -/
def offsetSeed? (node : Node) : Option UInt64 :=
  let held := (Seed.baseNames ++ Seed.offsetNames).filterMap fun name =>
    (node.literal? name).map fun value => (name, value)
  if held.any fun entry => Seed.offsetNames.contains entry.1 then Seed.ofJson? (.obj held)
  else none

/-- The first widget of the parameter's kind. -/
def likelyWidget? (param : Param) (node : Node) : Option Json :=
  node.widgets.find? fun value => if param.isText then value.isString else value.isNumber

/-- The step at a node of unknown type: a literal under one of the parameter's names, else a
likely link, else the first link, else a widget of the right kind. -/
def Step.guess (param : Param) (node : Node) (depth : Nat) : Step :=
  match param.aliases.findSome? node.literal? with
  | some value => .answer (some value)
  | none =>
    match param.hints.findSome? node.link? with
    | some target => .follow target (depth + 1)
    | none =>
      match node.firstLink? with
      | some link => .toInput node link.input depth
      | none => .answer (likelyWidget? param node)

/-- The plan for a node of unknown type. -/
def unknownPlan (search : Search) (param : Param) (node : Node) (depth : Nat) : Plan :=
  if search.heuristics then
    match (if param = .seed then offsetSeed? node else none) with
    | some seed => .single (.answer (some (.ofNatural seed)))
    | none => .single (.guess param node depth)
  else .nothing

/-- The plan for a node that was reached through an output slot at some depth. A node that does
not run is passed through. -/
def planFor (search : Search) (param : Param) (node : Node) (slot : Option UInt32)
    (depth : Nat) : Plan :=
  let definition := search.library.get? node.classType
  if node.mode.isSkipped then .single (.through definition node slot depth)
  else
    match definition with
    | none => unknownPlan search param node depth
    | some d =>
      match d.rule? param with
      | some rule => rulePlan search.library d node slot depth rule
      | none => unruledPlan search d node slot depth

end ImageRecipe.Tracing
