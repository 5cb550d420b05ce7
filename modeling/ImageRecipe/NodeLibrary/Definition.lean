import ImageRecipe.NodeLibrary.Param
import ImageRecipe.Workflow.Node

/-!
# Descriptions of node types

A description says how each parameter is read from a node of its type, what
the node's slots and widgets are, and which input stands in for an output when
a search passes through the node. Descriptions are put together by functions
that each add one statement.
-/
namespace ImageRecipe

inductive Category where
  | loader
  | sampler
  | guider
  | noise
  | scheduler
  | conditioning
  | text
  | latent
  | image
  | output
  | preview
  | routing
  | primitive
  | patch
  deriving DecidableEq, Repr

namespace Category

def all : List Category :=
  [loader, sampler, guider, noise, scheduler, conditioning, text, latent, image, output, preview,
    routing, primitive, patch]

def name : Category → String
  | loader => "loader"
  | sampler => "sampler"
  | guider => "guider"
  | noise => "noise"
  | scheduler => "scheduler"
  | conditioning => "conditioning"
  | text => "text"
  | latent => "latent"
  | image => "image"
  | output => "output"
  | preview => "preview"
  | routing => "routing"
  | primitive => "primitive"
  | patch => "patch"

def ofName? (name : String) : Option Category := all.find? (·.name == name)

end Category

inductive Role where
  | source
  | sink
  | transform
  | passThrough
  | routing
  deriving DecidableEq, Repr

namespace Role

def all : List Role := [source, sink, transform, passThrough, routing]

def name : Role → String
  | source => "source"
  | sink => "sink"
  | transform => "transform"
  | passThrough => "pass_through"
  | routing => "routing"

def ofName? (name : String) : Option Role := all.find? (·.name == name)

end Role

/-- A way to read a parameter that no single widget or input holds. -/
inductive Extractor where
  /-- The distinct texts of several widgets. -/
  | joinWidgets (names : List String)
  /-- The distinct texts behind several inputs. -/
  | joinInputs (names : List String)
  /-- The distinct texts of the string inputs, between them the node's own delimiter. -/
  | concatenate
  /-- The enabled entries of a list of LoRAs, then those further up. -/
  | loraList
  /-- The size of the samples times the node's factor. -/
  | scaledSize
  deriving DecidableEq, Repr

/-- How one parameter is read from a node. -/
inductive Rule where
  /-- The widget's value; a gathering rule notes the value and goes on through the node. -/
  | widget (name : String) (gathers : Bool)
  /-- Whatever lies behind an input. -/
  | trace (input : String)
  /-- The widget's own value, whatever it is linked to. -/
  | literal (name : String)
  | extract (extractor : Extractor)
  deriving DecidableEq, Repr

/-- An input that stands in for an output slot; without an input the first linked one does. -/
structure PassThrough where
  input : Option String
  slot : Option UInt32
  deriving DecidableEq, Repr

/-- A switch: the value of `control` is the number behind `stem` in the name of the input that
is let through. -/
structure Switch where
  control : String
  stem : String
  deriving DecidableEq, Repr

structure Definition where
  classType : String
  category : Category
  roles : List Role
  /-- The names and types of the inputs. -/
  inputs : List (String × String)
  /-- The types of the outputs by slot. -/
  outputs : List String
  /-- The names of the widgets in the order of their values. -/
  widgets : List String
  rules : List (Param × Rule)
  passThrough : List PassThrough
  switch : Option Switch
  deriving Repr

namespace Definition

def new (classType : String) (category : Category) : Definition :=
  ⟨classType, category, [], [], [], [], [], [], none⟩

def withRole (d : Definition) (role : Role) : Definition :=
  if d.roles.contains role then d else { d with roles := d.roles ++ [role] }

def withInputs (d : Definition) (inputs : List (String × String)) : Definition :=
  { d with inputs := inputs }

def withOutputs (d : Definition) (outputs : List String) : Definition :=
  { d with outputs := outputs }

def withWidgets (d : Definition) (widgets : List String) : Definition :=
  { d with widgets := widgets }

/-- The rule for a parameter. -/
def rule? (d : Definition) (param : Param) : Option Rule :=
  (d.rules.find? (·.1 == param)).map (·.2)

/-- Sets the rule for a parameter in place of an earlier one. -/
def withRule (d : Definition) (param : Param) (rule : Rule) : Definition :=
  { d with rules := d.rules.filter (·.1 != param) ++ [(param, rule)] }

/-- Sets one rule for several parameters. -/
def withRules (d : Definition) (params : List Param) (rule : Rule) : Definition :=
  params.foldl (fun d param => d.withRule param rule) d

/-- Looks behind `input` for every parameter that has no rule yet. -/
def tracingRest (d : Definition) (input : String) : Definition :=
  Param.all.foldl (fun d param =>
    if (d.rule? param).isNone then { d with rules := d.rules ++ [(param, .trace input)] } else d) d

/-- Lets `input` stand in for an output slot. -/
def passing (d : Definition) (input : String) (slot : UInt32) : Definition :=
  withRole { d with passThrough := d.passThrough ++ [⟨some input, some slot⟩] } .passThrough

/-- Lets the first linked input stand in for the output. -/
def passingFirst (d : Definition) : Definition :=
  withRole { d with passThrough := d.passThrough ++ [⟨none, none⟩] } .passThrough

def switching (d : Definition) (control stem : String) : Definition :=
  withRole { d with switch := some ⟨control, stem⟩ } .routing

def hasRole (d : Definition) (role : Role) : Bool := d.roles.contains role

/-- The position of a widget's value. -/
def widgetIndex? (d : Definition) (name : String) : Option Nat := d.widgets.findIdx? (· == name)

/-- The pass-through declared for an output slot, else the first one. -/
def passThroughFor? (d : Definition) (slot : Option UInt32) : Option PassThrough :=
  match d.passThrough.find? fun p => p.slot.isSome && p.slot == slot with
  | some p => some p
  | none => d.passThrough.head?

/-- The first declared input that is linked and has the type of the output slot. -/
def typedInput? (d : Definition) (node : Workflow.Node) (slot : Option UInt32) :
    Option String := do
  let type ← d.outputs[(← slot).toNat]?
  let candidates := d.inputs.filter (·.2 == type)
  candidates.findSome? fun input =>
    (node.links.find? (·.input == input.1)).map (·.input)

/-- A linked input by type, else the first linked input. -/
def undeclaredInput? (d : Definition) (node : Workflow.Node) (slot : Option UInt32) :
    Option String :=
  match d.typedInput? node slot with
  | some input => some input
  | none => node.firstLink?.map (·.input)

/-- The input that stands in for an output slot of a node. A declared one counts if it is
linked. -/
def bypassInput? (d : Definition) (node : Workflow.Node) (slot : Option UInt32) :
    Option String :=
  match d.passThroughFor? slot with
  | some ⟨some input, _⟩ =>
    if (node.link? input).isSome then some input else d.undeclaredInput? node slot
  | some ⟨none, _⟩ => node.firstLink?.map (·.input)
  | none => d.undeclaredInput? node slot

end Definition

/-- Descriptions of node types, at most one for each type. -/
structure NodeLibrary where
  definitions : List Definition
  deriving Repr

namespace NodeLibrary

def empty : NodeLibrary := ⟨[]⟩

/-- Adds a description in place of an earlier one of its type. -/
def register (library : NodeLibrary) (d : Definition) : NodeLibrary :=
  ⟨library.definitions.filter (·.classType != d.classType) ++ [d]⟩

def ofList (definitions : List Definition) : NodeLibrary := definitions.foldl register empty

def get? (library : NodeLibrary) (classType : String) : Option Definition :=
  library.definitions.find? (·.classType == classType)

def size (library : NodeLibrary) : Nat := library.definitions.length

end NodeLibrary

end ImageRecipe
