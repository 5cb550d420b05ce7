import ImageRecipe.Fault
import ImageRecipe.Workflow.Saved
import ImageRecipe.Workflow.Store

/-!
# Workflow forms

A workflow is saved in one of two forms, the one as it is run (API) and the one
as it is drawn (UI). Either is read into a store, and what a search is carried
out on is the graph of the store.
-/
namespace ImageRecipe.Workflow

namespace Graph

/-- The nodes of an API workflow: the members that are objects. -/
def apiNodes (members : List (String × Json)) : List Node :=
  (members.filter (·.2.isObject)).map fun m => (ApiNode.ofJson m.2).node m.1

/-- The graph of a workflow in the API form. -/
def ofApi : Json → Except Fault Graph
  | .obj members => .ok (Store.ofNodes (apiNodes members)).graph
  | _ => .error .apiNotObject

/-- The nodes of a UI workflow that have a usable id. -/
def uiNodes (workflow : UiWorkflow) : List Node :=
  workflow.nodes.filterMap (·.node? (UiLink.origin? workflow.links))

/-- The graph of a workflow in the UI form. -/
def ofUi (value : Json) : Except Fault Graph :=
  match UiWorkflow.ofJson? value with
  | some workflow => .ok (Store.ofNodes (uiNodes workflow)).graph
  | none => .error .uiWithoutNodes

end Graph

/-- An object with a member that has a type tag. -/
def isApiForm : Json → Bool
  | .obj members => members.any fun m => ((m.2.get? "class_type").map Json.isString).getD false
  | _ => false

/-- An object with a list of nodes of which one has a type. -/
def isUiForm (value : Json) : Bool :=
  match (value.get? "nodes").bind Json.array? with
  | some nodes => nodes.any fun n => ((n.get? "type").map Json.isString).getD false
  | none => false

def isWorkflow (value : Json) : Bool := isApiForm value || isUiForm value

/-- The graph of a workflow in either form; a value in both is read in the UI form. -/
def Graph.ofJson (value : Json) : Except Fault Graph :=
  if isUiForm value then ofUi value
  else if isApiForm value then ofApi value
  else .error .notWorkflow

end ImageRecipe.Workflow
