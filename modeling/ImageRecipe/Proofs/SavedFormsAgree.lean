import ImageRecipe.Proofs.GraphStore
import ImageRecipe.Proofs.SavedNodes

/-!
# Agreement of the two saved forms

The graphs of the two forms have the same ids in the same order, the same edges,
and at each id the two forms of one node. A walk takes the same steps in both of
them, so every search, the order of the sinks and the facts are the same. Only a
literal that has the form of a link makes a difference.
-/
namespace ImageRecipe

namespace Workflow.AuthoredWorkflow

variable (workflow : AuthoredWorkflow)

def node? (id : String) : Option AuthoredNode := workflow.nodes.find? (·.id == id)

section Forms

variable {form : AuthoredNode → Node} (hid : ∀ node, (form node).id = node.id)
include hid

lemma graphOf_eq_connected :
    workflow.graphOf form = (⟨workflow.nodes.map form, []⟩ : Graph).connected := by
  refine Graph.ofNodes_eq_connected ?_
  have hids : (workflow.nodes.map form).map Node.id = workflow.nodes.map AuthoredNode.id := by
    rw [List.map_map]
    exact List.map_congr_left fun node _ => hid node
  rw [hids]
  exact workflow.ids_nodup

lemma nodes_graphOf : (workflow.graphOf form).nodes = workflow.nodes.map form := by
  rw [workflow.graphOf_eq_connected hid]
  rfl

lemma node?_graphOf (id : String) :
    (workflow.graphOf form).node? id = (workflow.node? id).map form := by
  have hsame : ((fun node : Node => node.id == id) ∘ form) = fun node => node.id == id :=
    funext fun node => congrArg (· == id) (hid node)
  rw [Graph.node?, workflow.nodes_graphOf hid, List.find?_map, hsame]
  rfl

lemma edges_graphOf : (workflow.graphOf form).edges =
    workflow.nodes.flatMap fun node => (workflow.graphOf form).edgesInto (form node) := by
  have hedges : (workflow.graphOf form).edges =
      (workflow.graphOf form).nodes.flatMap (workflow.graphOf form).edgesInto := by
    rw [workflow.graphOf_eq_connected hid]
    rfl
  rw [hedges, workflow.nodes_graphOf hid, List.flatMap_map]

end Forms

/-- The graph of the API form. -/
def apiGraph : Graph := workflow.graphOf AuthoredNode.apiNode

/-- The graph of the UI form. -/
def uiGraph : Graph := workflow.graphOf AuthoredNode.uiNode

lemma node?_apiGraph (id : String) :
    workflow.apiGraph.node? id = (workflow.node? id).map AuthoredNode.apiNode :=
  workflow.node?_graphOf (fun _ => rfl) id

lemma node?_uiGraph (id : String) :
    workflow.uiGraph.node? id = (workflow.node? id).map AuthoredNode.uiNode :=
  workflow.node?_graphOf (fun _ => rfl) id

lemma hasNode_apiGraph (id : String) :
    workflow.apiGraph.hasNode id = workflow.uiGraph.hasNode id := by
  rw [Graph.hasNode, Graph.hasNode, node?_apiGraph, node?_uiGraph, Option.isSome_map,
    Option.isSome_map]

lemma edges_apiGraph : workflow.apiGraph.edges = workflow.uiGraph.edges := by
  have hinto : ∀ node : AuthoredNode, workflow.apiGraph.edgesInto node.apiNode =
      workflow.uiGraph.edgesInto node.uiNode := by
    intro node
    simp only [Graph.edgesInto, node.links_apiNode, node.links_uiNode, hasNode_apiGraph]
    rfl
  calc workflow.apiGraph.edges
      = workflow.nodes.flatMap fun node => workflow.apiGraph.edgesInto node.apiNode :=
        workflow.edges_graphOf fun _ => rfl
    _ = workflow.nodes.flatMap fun node => workflow.uiGraph.edgesInto node.uiNode :=
        congrArg workflow.nodes.flatMap (funext hinto)
    _ = workflow.uiGraph.edges := (workflow.edges_graphOf fun _ => rfl).symm

lemma isLeaf_apiGraph (id : String) :
    workflow.apiGraph.isLeaf id = workflow.uiGraph.isLeaf id := by
  rw [Graph.isLeaf, Graph.isLeaf, hasNode_apiGraph, edges_apiGraph]

end Workflow.AuthoredWorkflow

namespace Tracing

open Workflow

variable (workflow : AuthoredWorkflow) (settings : Settings) (param : Param)

/-- The search in the graph of the API form. -/
abbrev apiSearch : Search := .ofSettings workflow.apiGraph .builtin settings

/-- The search in the graph of the UI form. -/
abbrev uiSearch : Search := .ofSettings workflow.uiGraph .builtin settings

/-- At each id both graphs have a form of one node, and the plans for its forms are the same. -/
lemma resolve_apiSearch (start : String) :
    (apiSearch workflow settings).resolve start param =
      (uiSearch workflow settings).resolve start param := by
  have hdepth : (apiSearch workflow settings).maxDepth = (uiSearch workflow settings).maxDepth :=
    rfl
  refine Search.resolve_congr hdepth (fun id slot depth => ?_) start
  have hapi : (apiSearch workflow settings).graph.node? id =
      (workflow.node? id).map AuthoredNode.apiNode := workflow.node?_apiGraph id
  have hui : (uiSearch workflow settings).graph.node? id =
      (workflow.node? id).map AuthoredNode.uiNode := workflow.node?_uiGraph id
  rw [Search.plan?, Search.plan?, hapi, hui]
  cases workflow.node? id with
  | none => simp only [Option.map_none]
  | some node =>
    simp only [Option.map_some, planFor_apiNode node slot depth workflow.apiGraph workflow.uiGraph]

/-- The strengths of a LoRA are widgets of its loader, which have the same values. -/
lemma lora?_apiSearch (gathered : String × Json) :
    lora? (apiSearch workflow settings) gathered = lora? (uiSearch workflow settings) gathered := by
  refine Search.lora?_congr fun value => ?_
  unfold loraOfLoader?
  have hapi : (apiSearch workflow settings).graph.node? gathered.1 =
      (workflow.node? gathered.1).map AuthoredNode.apiNode := workflow.node?_apiGraph gathered.1
  have hui : (uiSearch workflow settings).graph.node? gathered.1 =
      (workflow.node? gathered.1).map AuthoredNode.uiNode := workflow.node?_uiGraph gathered.1
  rw [hapi, hui]
  cases workflow.node? gathered.1 with
  | none => rfl
  | some node =>
    simp only [Option.map_some, Search.ofSettings, Option.bind_eq_bind, Option.bind_some,
      node.ownValue?_forms]

lemma sinkRank?_apiNode (node : AuthoredNode) :
    sinkRank? .builtin node.apiNode = sinkRank? .builtin node.uiNode := by
  simp only [sinkRank?, AuthoredNode.apiNode, AuthoredNode.uiNode, node.registered]
  rfl

end Tracing

namespace Workflow.AuthoredWorkflow

open Tracing

variable (workflow : AuthoredWorkflow)

def rankedSinks : List (Nat × AuthoredNode) :=
  workflow.nodes.filterMap fun node =>
    (sinkRank? .builtin node.uiNode).map fun rank => (rank, node)

def rankedLeaves : List (Nat × AuthoredNode) :=
  (workflow.nodes.filter fun node =>
    node.uiNode.firstLink?.isSome && workflow.uiGraph.isLeaf node.id).map
      fun node => (modeRank node.uiNode, node)

/-- The nodes at which searches begin, in their order. -/
def sinks : List AuthoredNode :=
  let ranked := if workflow.rankedSinks.isEmpty then workflow.rankedLeaves else workflow.rankedSinks
  (ranked.mergeSort fun a b => a.1 ≤ b.1).map (·.2)

/-- In a graph of either form these nodes are the sinks. -/
lemma sinks_graphOf {form : AuthoredNode → Node} (hid : ∀ node, (form node).id = node.id)
    (hmode : ∀ node, modeRank (form node) = modeRank node.uiNode)
    (hrank : ∀ node, sinkRank? .builtin (form node) = sinkRank? .builtin node.uiNode)
    (hfirst : ∀ node, (form node).firstLink? = node.uiNode.firstLink?)
    (hleaf : ∀ id, (workflow.graphOf form).isLeaf id = workflow.uiGraph.isLeaf id) :
    Tracing.sinks .builtin (workflow.graphOf form) = workflow.sinks.map form := by
  have hsinks : Tracing.rankedSinks .builtin (workflow.graphOf form) =
      workflow.rankedSinks.map fun entry => (entry.1, form entry.2) := by
    simp only [Tracing.rankedSinks, workflow.nodes_graphOf hid, List.filterMap_map, rankedSinks,
      List.map_filterMap, Option.map_map, Function.comp_def, hrank]
  have hleaves : Tracing.rankedLeaves (workflow.graphOf form) =
      workflow.rankedLeaves.map fun entry => (entry.1, form entry.2) := by
    simp only [Tracing.rankedLeaves, workflow.nodes_graphOf hid, List.filter_map, rankedLeaves,
      List.map_map, Function.comp_def, hid, hmode, hfirst, hleaf]
  rw [sinks, ← byRank_map, Tracing.sinks, hsinks, hleaves, List.isEmpty_map,
    apply_ite (List.map _)]

theorem sinks_apiGraph :
    Tracing.sinks .builtin workflow.apiGraph = workflow.sinks.map AuthoredNode.apiNode :=
  workflow.sinks_graphOf (fun _ => rfl) (fun _ => rfl) sinkRank?_apiNode
    (fun node => node.firstLink?_apiNode) workflow.isLeaf_apiGraph

theorem sinks_uiGraph :
    Tracing.sinks .builtin workflow.uiGraph = workflow.sinks.map AuthoredNode.uiNode :=
  workflow.sinks_graphOf (fun _ => rfl) (fun _ => rfl) (fun _ => rfl) (fun _ => rfl) fun _ => rfl

lemma ids_sinks : (Tracing.sinks .builtin workflow.apiGraph).map Node.id =
    (Tracing.sinks .builtin workflow.uiGraph).map Node.id := by
  rw [workflow.sinks_apiGraph, workflow.sinks_uiGraph, List.map_map, List.map_map]
  rfl

theorem facts_apiGraph (settings : Settings) :
    workflow.apiGraph.facts .builtin settings = workflow.uiGraph.facts .builtin settings := by
  have hfacts := Search.facts_congr
    (fun start param => resolve_apiSearch workflow settings param start) workflow.ids_sinks
    fun _ entry _ => lora?_apiSearch workflow settings entry
  exact congrArg (fun walk => (walk.run .empty).1) hfacts

end Workflow.AuthoredWorkflow

namespace Workflow

/-- What interpreting two graphs has in common: every search from every trail, the order of the
sinks, and the facts. -/
structure Graph.InterpretedAlike (api ui : Graph) : Prop where
  resolve : ∀ settings start param,
    (Tracing.Search.ofSettings api .builtin settings).resolve start param =
      (Tracing.Search.ofSettings ui .builtin settings).resolve start param
  sinks : (Tracing.sinks .builtin api).map Node.id = (Tracing.sinks .builtin ui).map Node.id
  facts : ∀ settings, api.facts .builtin settings = ui.facts .builtin settings

namespace AuthoredWorkflow

/-- Whether both forms can be read and are interpreted alike. -/
def FormsAgree (workflow : AuthoredWorkflow) (table : List Json) : Prop :=
  ∃ api ui : Graph, Graph.ofApi workflow.apiForm = .ok api ∧
    Graph.ofUi (workflow.uiForm table) = .ok ui ∧ api.InterpretedAlike ui

lemma interpretedAlike (workflow : AuthoredWorkflow) :
    workflow.apiGraph.InterpretedAlike workflow.uiGraph where
  resolve settings start param := Tracing.resolve_apiSearch workflow settings param start
  sinks := workflow.ids_sinks
  facts := workflow.facts_apiGraph

/-- The two forms of a workflow are interpreted alike if no literal has the form of a link. -/
theorem formsAgree_of_literalsApart (workflow : AuthoredWorkflow) {table : List Json}
    (ht : workflow.IsLinkTable table) (hl : workflow.LiteralsApart) :
    workflow.FormsAgree table := by
  have hapi : Graph.ofApi workflow.apiForm = .ok workflow.apiGraph := by
    rw [ofApi_apiForm, graphOf_readNode hl]
    rfl
  exact ⟨workflow.apiGraph, workflow.uiGraph, hapi, ofUi_uiForm ht, workflow.interpretedAlike⟩

end AuthoredWorkflow

def promptEncoder (text : Json) : AuthoredNode where
  id := "1"
  definition := Catalogue.textEncoder "CLIPTextEncode" ["text"] "text"
  mode := none
  inputs := [("text", .literal text)]
  id_ne_empty := by decide
  registered := NodeLibrary.get?_builtin_of_mem
    (d := Catalogue.textEncoder "CLIPTextEncode" ["text"] "text")
    (by simp [NodeLibrary.catalogues, Catalogue.texts])
  names_nodup := List.nodup_singleton "text"
  names_ne_empty := by simp
  sources_ne_empty := by simp
  literals_named := by
    intro name value h
    cases List.mem_singleton.mp h
    decide
  control_unlinked := by simp

def promptedSampler : AuthoredNode where
  id := "2"
  definition := Catalogue.kSampler
  mode := some 4
  inputs := [("steps", .literal (.num (.int 20))), ("positive", .link 7 ⟨"1", 0⟩)]
  id_ne_empty := by decide
  registered := NodeLibrary.get?_builtin_of_mem (d := Catalogue.kSampler)
    (by simp [NodeLibrary.catalogues, Catalogue.sampling])
  names_nodup := by decide
  names_ne_empty := by simp
  sources_ne_empty := by
    intro name number target h
    simp only [List.mem_cons, Prod.mk.injEq, AuthoredInput.link.injEq, reduceCtorEq, and_false,
      List.not_mem_nil, or_false, false_or] at h
    rw [h.2.2]
    decide
  literals_named := by
    intro name value h
    have hname : name = "steps" ∧ value = .num (.int 20) := by simpa using h
    rw [hname.1]
    decide
  control_unlinked := by
    intro switch h
    cases h

/-- A sampler with a prompt. -/
def promptedWorkflow (text : Json) : AuthoredWorkflow where
  nodes := [promptEncoder text, promptedSampler]
  ids_nodup := by
    have h : ["1", "2"].Nodup := by decide
    exact h
  numbers_nodup := List.nodup_singleton (7 : Int64)

/-- The row of the one link, with its type. -/
def promptTable : List Json :=
  [AuthoredLink.row ⟨"positive", 7, ⟨"1", 0⟩⟩ "2" 1 [.str "CONDITIONING"]]

lemma isLinkTable_promptTable (text : Json) :
    (promptedWorkflow text).IsLinkTable promptTable where
  sound := by
    intro row h
    cases List.mem_singleton.mp h
    exact ⟨promptedSampler, by simp [promptedWorkflow], _, List.mem_singleton.mpr rfl, _, _, rfl⟩
  complete := by
    intro node hn link hl
    rcases List.mem_pair.mp hn with rfl | rfl
    · cases hl
    · cases List.mem_singleton.mp hl
      exact ⟨1, [.str "CONDITIONING"], List.mem_singleton.mpr rfl⟩

theorem formsAgree_promptedWorkflow :
    ((promptedWorkflow (.str "a cat")).IsLinkTable promptTable ∧
      (promptedWorkflow (.str "a cat")).LiteralsApart) ∧
        (promptedWorkflow (.str "a cat")).FormsAgree promptTable := by
  have ht := isLinkTable_promptTable (.str "a cat")
  have hl : (promptedWorkflow (.str "a cat")).LiteralsApart := by
    intro node hn name value hv
    rcases List.mem_pair.mp hn with rfl | rfl
    · cases List.mem_singleton.mp hv
      rfl
    · have hvalue : name = "steps" ∧ value = .num (.int 20) := by
        simpa [promptedSampler] using hv
      rw [hvalue.2]
      rfl
  exact ⟨⟨ht, hl⟩, AuthoredWorkflow.formsAgree_of_literalsApart _ ht hl⟩

/-- A text of the form of a link. -/
def linkLikeText : Json := .arr [.str "x", .num (.int 0)]

open Tracing in
/-- A search that begins at a node with a plan of one step takes that step. -/
lemma run_resolve_single {search : Search} {param : Param} {start : String} {node : Node}
    {step : Step} {room : Nat} (hroom : search.maxPath = room + 1)
    (hnode : search.graph.node? start = some node)
    (hplan : planFor search param node none 0 = .single step) :
    (search.resolve start param).run .empty =
      (Walk.step (search.visitBehind param room) step).run (Trail.empty.enter start) := by
  have hfree : ¬ search.Refuses start 0 .empty := by simp [Search.Refuses, Trail.empty]
  rw [Search.run_resolve, hroom]
  refine (Search.run_visit_found search param hfree hnode).trans ?_
  rw [hplan, Walk.run_carryOut_single]

open Tracing in
/-- In the API form the text is a link to a node that is not there. -/
lemma resolve_readNode_linkLikeText :
    (((Search.ofSettings ((promptedWorkflow linkLikeText).graphOf AuthoredNode.readNode)
      .builtin {}).resolve "1" .prompt).run .empty).1 = none := by
  let search := Search.ofSettings ((promptedWorkflow linkLikeText).graphOf AuthoredNode.readNode)
    .builtin {}
  let node := (promptEncoder linkLikeText).readNode
  have hread : Input.ofJson linkLikeText = .link ⟨"x", 0⟩ := ofJson_pair "x" (natural?_int_toNat 0)
  have hlink : node.link? "text" = some ⟨"x", 0⟩ := congrArg Input.link? hread
  have hplan : planFor search .prompt node none 0 = .single (.follow ⟨"x", 0⟩ 1) := by
    have hrule : planFor search .prompt node none 0 = rulePlan search.library
        (promptEncoder linkLikeText).definition node none 0 (.widget "text" false) :=
      planFor_ruled rfl (promptEncoder linkLikeText).registered rfl
    rw [hrule, rulePlan, Step.toWidget, hlink]
  have hroom : search.maxPath = 126 + 1 + 1 := rfl
  have hfree : ¬ search.Refuses "x" 1 (Trail.empty.enter "1") := by
    have hdepth : ¬ search.maxDepth < 1 := by decide
    simp [Search.Refuses, Trail.empty, hdepth]
  rw [run_resolve_single hroom rfl hplan, Walk.run_step_follow]
  exact congrArg Prod.fst (Search.run_visit_missing search .prompt hfree rfl)

open Tracing in
lemma resolve_uiGraph_linkLikeText :
    (((Search.ofSettings (promptedWorkflow linkLikeText).uiGraph .builtin {}).resolve "1"
      .prompt).run .empty).1 = some linkLikeText := by
  let search := Search.ofSettings (promptedWorkflow linkLikeText).uiGraph .builtin {}
  let node := (promptEncoder linkLikeText).uiNode
  have hplan : planFor search .prompt node none 0 = .single (.answer (some linkLikeText)) := by
    have hrule : planFor search .prompt node none 0 = rulePlan .builtin
        (promptEncoder linkLikeText).definition node none 0 (.widget "text" false) :=
      planFor_ruled rfl (promptEncoder linkLikeText).registered rfl
    rw [hrule, rulePlan, Step.toWidget, AuthoredNode.link?_uiNode, AuthoredNode.ownValue?_uiNode]
    rfl
  have hroom : search.maxPath = 127 + 1 := rfl
  rw [run_resolve_single hroom rfl hplan]
  rfl

theorem not_formsAgree_linkLikeText :
    (promptedWorkflow linkLikeText).IsLinkTable promptTable ∧
      ¬ (promptedWorkflow linkLikeText).FormsAgree promptTable := by
  have ht := isLinkTable_promptTable linkLikeText
  refine ⟨ht, fun ⟨api, ui, hapi, hui, h⟩ => ?_⟩
  rw [AuthoredWorkflow.ofApi_apiForm] at hapi
  rw [AuthoredWorkflow.ofUi_uiForm ht] at hui
  have hresolve := h.resolve {} "1" .prompt
  rw [← Except.ok.inj hapi, ← Except.ok.inj hui] at hresolve
  have hui' := resolve_uiGraph_linkLikeText
  rw [AuthoredWorkflow.uiGraph, ← hresolve, resolve_readNode_linkLikeText] at hui'
  cases hui'

end Workflow

end ImageRecipe
