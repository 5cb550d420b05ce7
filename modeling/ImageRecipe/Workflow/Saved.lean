import ImageRecipe.Json.Fields
import ImageRecipe.Json.Printer
import ImageRecipe.Workflow.Node

/-!
# The two saved forms of a workflow

The API form is an object of nodes by id. The UI form has a list of nodes and a
table of links; links there have numbers of their own, and literals stand in
the widget values. Both are read leniently: an API node with a field of the
wrong type keeps its type tag only, and such a UI node is left out.
-/
namespace ImageRecipe.Workflow

/-- An id is a non-empty string or a number. -/
def idText? : Json → Option String
  | .str s => if s.isEmpty then none else some s
  | .num n => some n.text
  | _ => none

/-- A node of the API form. -/
structure ApiNode where
  classType : String := ""
  inputs : List (String × Json) := []
  widgetValues : Option Json := none
  mode : Option Int := none
  title : Option String := none

namespace ApiNode

/-- The title in the meta field of a node. -/
def metaTitle? (value : Json) : Option (Option String) := do
  match ← value.fields? ["title"] with
  | [title] => Json.openField Json.string? title
  | _ => none

/-- A node all of whose fields have the right type. -/
def ofJson? (value : Json) : Option ApiNode := do
  match ← value.fields? ["class_type", "inputs", "widgets_values", "mode", "_meta"] with
  | [classType, inputs, widgetValues, mode, info] =>
    let classType ← Json.fieldOr "" Json.string? classType
    let inputs ← Json.fieldOr [] Json.object? inputs
    let widgetValues ← Json.openField some widgetValues
    let mode ← Json.openField Json.integer? mode
    let title ← Json.openField metaTitle? info
    some ⟨classType, inputs, widgetValues, mode, title.join⟩
  | _ => none

/-- A node with a field of the wrong type keeps its type tag only. -/
def ofJson (value : Json) : ApiNode :=
  match ofJson? value with
  | some node => node
  | none =>
    let classType := (value.get? "class_type").bind Json.string?
    ⟨classType.getD "", [], none, none, none⟩

/-- The node under its id. -/
def node (api : ApiNode) (id : String) : Node where
  id := id
  classType := api.classType
  title := api.title
  inputs := api.inputs.map fun input => (input.1, Input.ofJson input.2)
  widgets := (api.widgetValues.bind Json.array?).getD []
  mode := .ofCode api.mode

end ApiNode

/-- An input of a UI node: its name, the number of its link and the widget it was made from. -/
structure UiInput where
  name : String
  link : Option Int
  widget : Option String

namespace UiInput

/-- The name in a widget reference. -/
def widgetName? (value : Json) : Option String := do
  match ← value.fields? ["name"] with
  | [name] => Json.fieldOr "" Json.string? name
  | _ => none

def ofJson? (value : Json) : Option UiInput := do
  match ← value.fields? ["name", "link", "widget"] with
  | [name, link, widget] =>
    let name ← Json.fieldOr "" Json.string? name
    let link ← Json.openField Json.integer? link
    let widget ← Json.openField widgetName? widget
    some ⟨name, link, widget⟩
  | _ => none

/-- The name of the widget if it has one, else the input's own, else its position. -/
def nodeInputName (input : UiInput) (position : Nat) : String :=
  match input.widget.filter (fun name => !name.isEmpty) with
  | some widget => widget
  | none => if input.name.isEmpty then s!"input_{position}" else input.name

end UiInput

/-- A node of the UI form. -/
structure UiNode where
  id : Json
  classType : String
  mode : Option Int
  inputs : List UiInput
  widgetValues : Option Json
  title : Option String

namespace UiNode

/-- The elements of an array, all of which have to be inputs. -/
def inputs? (value : Json) : Option (List UiInput) := do
  (← value.array?).mapM UiInput.ofJson?

def ofJson? (value : Json) : Option UiNode := do
  match ← value.fields? ["id", "type", "mode", "inputs", "widgets_values", "title"] with
  | [id, classType, mode, inputs, widgetValues, title] =>
    let classType ← Json.fieldOr "" Json.string? classType
    let mode ← Json.openField Json.integer? mode
    let inputs ← Json.fieldOr [] inputs? inputs
    let widgetValues ← Json.openField some widgetValues
    let title ← Json.openField Json.string? title
    some ⟨id.getD .null, classType, mode, inputs, widgetValues, title⟩
  | _ => none

/-- The inputs with a link whose origin is known. -/
def linkedInputs (ui : UiNode) (origin? : Int → Option Link) : List (String × Input) :=
  ui.inputs.zipIdx.filterMap fun (input, position) =>
    (input.link.bind origin?).map fun target => (input.nodeInputName position, .link target)

/-- Widget values saved by name are literals, save those under the name of a linked input. -/
def namedWidgets (ui : UiNode) (linked : List (String × Input)) : List (String × Input) :=
  match ui.widgetValues with
  | some (.obj members) =>
    (members.filter fun m => !linked.any (·.1 == m.1)).map fun m => (m.1, .literal m.2)
  | _ => []

/-- The node, if it has a usable id. -/
def node? (ui : UiNode) (origin? : Int → Option Link) : Option Node :=
  (idText? ui.id).map fun id =>
    let linked := ui.linkedInputs origin?
    { id := id
      classType := ui.classType
      title := ui.title
      inputs := linked ++ ui.namedWidgets linked
      widgets := (ui.widgetValues.bind Json.array?).getD []
      mode := .ofCode ui.mode }

end UiNode

/-- A row of the link table. -/
structure UiLink where
  id : Int
  origin : Link
  target : Link
  deriving DecidableEq, Repr

namespace UiLink

/-- A row from its five values; slots keep their low 32 bits. -/
def ofValues? (id origin originSlot target targetSlot : Json) : Option UiLink := do
  let id ← id.integer?
  let origin ← idText? origin
  let originSlot ← originSlot.natural?
  let target ← idText? target
  let targetSlot ← targetSlot.natural?
  some ⟨id, ⟨origin, originSlot.toUInt32⟩, ⟨target, targetSlot.toUInt32⟩⟩

/-- A row is an array that begins with the five values, or an object that names them. -/
def ofJson? : Json → Option UiLink
  | .arr (id :: origin :: originSlot :: target :: targetSlot :: _) =>
    ofValues? id origin originSlot target targetSlot
  | .obj members => do
    let id ← Json.lookup? "id" members
    let origin ← Json.lookup? "origin_id" members
    let originSlot ← Json.lookup? "origin_slot" members
    let target ← Json.lookup? "target_id" members
    let targetSlot ← Json.lookup? "target_slot" members
    ofValues? id origin originSlot target targetSlot
  | _ => none

/-- The origin that the last row with a number gives. -/
def origin? (links : List UiLink) (id : Int) : Option Link :=
  (links.reverse.find? (·.id == id)).map (·.origin)

end UiLink

/-- A workflow in the UI form. -/
structure UiWorkflow where
  nodes : List UiNode
  links : List UiLink

/-- The rows and nodes that can be read, of an object with an array of nodes. -/
def UiWorkflow.ofJson? (value : Json) : Option UiWorkflow := do
  let nodes ← (← value.get? "nodes").array?
  let links := ((value.get? "links").bind Json.array?).getD []
  some ⟨nodes.filterMap UiNode.ofJson?, links.filterMap UiLink.ofJson?⟩

end ImageRecipe.Workflow
