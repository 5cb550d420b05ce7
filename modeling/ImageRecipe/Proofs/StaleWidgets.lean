import ImageRecipe.Proofs.SkippedValues

/-!
# Widgets that were made into linked inputs

A widget of a node in the UI form may have been made into an input and linked.
Its last value is still there among the widget values, but it is stale: the
value behind the link has taken its place. A search for a parameter puts the
link first, so stale values make no difference to the facts, unless they are
read without a look at the link. The widgets that are read in this way are said
here for every rule, and so is the first widget of a node from which a switch
takes its control.
-/
namespace ImageRecipe

namespace Workflow

/-- Whether the widget at a position was made into a linked input, so that its value is stale. -/
def Node.isStale (library : NodeLibrary) (node : Node) (index : Nat) : Bool :=
  (((library.get? node.classType).bind fun d => d.widgets[index]?).bind node.link?).isSome

/-- The node with null in place of its stale values. -/
def Node.eraseStale (library : NodeLibrary) (node : Node) : Node :=
  { node with
    widgets := node.widgets.mapIdx fun index value =>
      if node.isStale library index then .null else value }

/-- Whether the widget at a position is the name of an input whose link has a known origin. -/
def UiNode.isStale (library : NodeLibrary) (origin? : Int → Option Link) (ui : UiNode)
    (index : Nat) : Bool :=
  match (library.get? ui.classType).bind fun d => d.widgets[index]? with
  | some name => (ui.linkedInputs origin?).any (·.1 == name)
  | none => false

/-- The node with null in place of the stale values in its array of widget values. -/
def UiNode.eraseStale (library : NodeLibrary) (origin? : Int → Option Link) (ui : UiNode) :
    UiNode :=
  match ui.widgetValues with
  | some (.arr values) =>
    { ui with
      widgetValues := some (.arr (values.mapIdx fun index value =>
        if ui.isStale library origin? index then .null else value)) }
  | _ => ui

/-- The workflow without its stale widget values. -/
def UiWorkflow.eraseStale (library : NodeLibrary) (workflow : UiWorkflow) : UiWorkflow :=
  { workflow with
    nodes := workflow.nodes.map (·.eraseStale library (UiLink.origin? workflow.links)) }

end Workflow

/-- The widgets of which a loader of LoRAs takes the strengths. -/
def strengthWidgets : List String := ["strength_model", "strength", "strength_clip"]

/-- The widgets that a rule reads whether they are linked or not. -/
def Rule.bareWidgets (d : Definition) : Rule → List String
  | .widget _ true => strengthWidgets
  | .widget _ false => []
  | .trace _ => []
  | .literal name => [name]
  | .extract .concatenate => ["delimiter", "separator"]
  | .extract .scaledSize => ["scale_by"]
  | .extract .loraList => d.widgets
  | .extract _ => []

/-- The widgets of a node that its rules read whether they are linked or not. -/
def Definition.bareWidgets (d : Definition) : List String :=
  (d.rules.flatMap fun entry => entry.2.bareWidgets d).filter d.widgets.contains

/-- No stale value is read: what a running node reads bare is not linked, and where a running switch
has its linked control looked for, the first widget is not stale. -/
structure Workflow.Graph.StaleUnread (graph : Graph) (library : NodeLibrary) : Prop where
  bare : ∀ node ∈ graph.nodes, node.mode.isSkipped = false →
    ∀ d ∈ library.get? node.classType, ∀ name ∈ d.bareWidgets, node.link? name = none
  controls : ∀ node ∈ graph.nodes, node.mode.isSkipped = false →
    ∀ d ∈ library.get? node.classType, ∀ switch ∈ d.switch,
      ∀ target ∈ node.link? switch.control, ∀ consulted, graph.Consults target.source consulted →
        consulted.isStale library 0 = false

namespace Workflow

variable {library : NodeLibrary}

lemma Node.keepsWiring_eraseStale (library : NodeLibrary) :
    Node.KeepsWiring (Node.eraseStale library) :=
  ⟨fun _ => rfl, fun _ => rfl, fun _ => rfl, fun _ => rfl⟩

lemma Node.widgets_eraseStale_of_not_stale {node : Node} {index : Nat}
    (h : node.isStale library index = false) :
    (node.eraseStale library).widgets[index]? = node.widgets[index]? := by
  simp only [eraseStale, List.getElem?_mapIdx, h, Bool.false_eq_true, if_false, Option.map_id']

/-- If none of its widgets is linked, the node is left as it is. -/
lemma Node.eraseStale_eq_self {node : Node} (h : ∀ index, node.isStale library index = false) :
    node.eraseStale library = node := by
  have hwidgets : (node.eraseStale library).widgets = node.widgets :=
    List.ext_getElem? fun index => widgets_eraseStale_of_not_stale (h index)
  have hself : node.eraseStale library =
      { node with widgets := (node.eraseStale library).widgets } := rfl
  rw [hself, hwidgets]

lemma Node.isStale_eq_false {node : Node}
    (h : ∀ d ∈ library.get? node.classType, ∀ name ∈ d.widgets, node.link? name = none)
    (index : Nat) : node.isStale library index = false := by
  unfold isStale
  cases hd : library.get? node.classType with
  | none => rfl
  | some d =>
    cases hi : d.widgets[index]? with
    | none => simp [hi]
    | some name => simp [hi, h d hd name (List.mem_of_getElem? hi)]

/-- A plain value is left alone if it is not in a stale first widget. -/
lemma Node.plainValue?_eraseStale {node : Node} (h : node.isStale library 0 = false) :
    Tracing.plainValue? (node.eraseStale library) = Tracing.plainValue? node := by
  have hhead : (node.eraseStale library).widgets.head? = node.widgets.head? := by
    rw [List.head?_eq_getElem?, List.head?_eq_getElem?, widgets_eraseStale_of_not_stale h]
  have hliteral : (node.eraseStale library).literal? = node.literal? := rfl
  rw [Tracing.plainValue?, Tracing.plainValue?, hhead, hliteral]

/-- Erasing stale values leaves alone whether they are read. -/
lemma Graph.staleUnread_eraseStale_iff {graph : Graph} :
    (graph.mapNodes (Node.eraseStale library)).StaleUnread library ↔
      graph.StaleUnread library := by
  have hsame : ∀ source : String,
      (∀ node, (graph.mapNodes (Node.eraseStale library)).Consults source node →
        node.isStale library 0 = false) ↔
      ∀ node, graph.Consults source node → node.isStale library 0 = false :=
    forall_consults_mapNodes (Node.keepsWiring_eraseStale library) (fun _ => Iff.rfl)
      (fun _ => Node.plainValue?_eraseStale) graph
  have hmem : ∀ node ∈ graph.nodes,
      node.eraseStale library ∈ (graph.mapNodes (Node.eraseStale library)).nodes :=
    fun node hn => List.mem_map_of_mem hn
  constructor
  · intro h
    refine ⟨fun node hn => h.bare (node.eraseStale library) (hmem node hn),
      fun node hn hrun d hd switch hs target ht => ?_⟩
    exact (hsame target.source).mp
      (h.controls (node.eraseStale library) (hmem node hn) hrun d hd switch hs target ht)
  · intro h
    refine ⟨fun node hn => ?_, fun node hn hrun d hd switch hs target ht => ?_⟩
    · obtain ⟨original, ho, rfl⟩ := List.mem_map.mp hn
      exact h.bare original ho
    · obtain ⟨original, ho, rfl⟩ := List.mem_map.mp hn
      exact (hsame target.source).mpr (h.controls original ho hrun d hd switch hs target ht)

end Workflow

lemma Definition.mem_bareWidgets {d : Definition} {param : Param} {rule : Rule} {name : String}
    (hr : d.rule? param = some rule) (hname : name ∈ rule.bareWidgets d) (hw : name ∈ d.widgets) :
    name ∈ d.bareWidgets := by
  obtain ⟨entry, hfind, rfl⟩ := Option.map_eq_some_iff.mp hr
  refine List.mem_filter.mpr ⟨?_, List.contains_iff_mem.mpr hw⟩
  exact List.mem_flatMap.mpr ⟨entry, List.mem_of_find?_eq_some hfind, hname⟩

namespace Tracing

open Workflow

section Nodes

variable {library : NodeLibrary} {node : Node} {name : String} {d : Definition}

/-- A widget's own value is left alone if the widget has no position or is not linked. -/
lemma ownValue?_eraseStale
    (h : ∀ d ∈ library.get? node.classType, name ∈ d.widgets → node.link? name = none) :
    ownValue? library (node.eraseStale library) name = ownValue? library node name := by
  have hpositional : positional? library (node.eraseStale library) name =
      positional? library node name := by
    have hclass : (node.eraseStale library).classType = node.classType := rfl
    unfold positional?
    rw [hclass]
    cases hd : library.get? node.classType with
    | none => rfl
    | some d =>
      cases hi : d.widgetIndex? name with
      | none => simp [hi]
      | some index =>
        obtain ⟨hlt, hname, -⟩ := List.findIdx?_eq_some_iff_getElem.mp hi
        have hwidget : d.widgets[index]? = some name := by
          rw [List.getElem?_eq_getElem hlt, eq_of_beq hname]
        have hfresh : node.isStale library index = false := by
          have hfree : node.link? name = none := h d hd (List.mem_of_getElem? hwidget)
          simp only [Node.isStale, hd, Option.bind_some, hwidget, hfree, Option.isSome_none]
        simp only [Option.bind_eq_bind, Option.bind_some, hi,
          Node.widgets_eraseStale_of_not_stale hfresh]
  have hliteral : (node.eraseStale library).literal? name = node.literal? name := rfl
  rw [ownValue?, ownValue?, hliteral, hpositional]

lemma toWidget_eraseStale (name : String) (depth : Nat) :
    Step.toWidget library (node.eraseStale library) name depth =
      Step.toWidget library node name depth := by
  have hlink : (node.eraseStale library).link? name = node.link? name := rfl
  rw [Step.toWidget, Step.toWidget, hlink]
  cases hl : node.link? name with
  | some target => rfl
  | none =>
    have hown : ownValue? library (node.eraseStale library) name = ownValue? library node name :=
      ownValue?_eraseStale fun _ _ _ => hl
    rw [hown]

variable (hd : library.get? node.classType = some d)
include hd

lemma ownValue?_eraseStale_of_bare {param : Param} {rule : Rule} (hr : d.rule? param = some rule)
    (hbare : ∀ name ∈ d.bareWidgets, node.link? name = none) (hname : name ∈ rule.bareWidgets d) :
    ownValue? library (node.eraseStale library) name = ownValue? library node name := by
  refine ownValue?_eraseStale fun other ho hw => ?_
  cases hd.symm.trans ho
  exact hbare name (Definition.mem_bareWidgets hr hname hw)

/-- What a rule reads is behind a link or not stale. -/
lemma rulePlan_eraseStale {param : Param} {rule : Rule} (hr : d.rule? param = some rule)
    (hbare : ∀ name ∈ d.bareWidgets, node.link? name = none) (slot : Option UInt32)
    (depth : Nat) :
    rulePlan library d (node.eraseStale library) slot depth rule =
      rulePlan library d node slot depth rule := by
  have hown : ∀ name ∈ rule.bareWidgets d,
      ownValue? library (node.eraseStale library) name = ownValue? library node name :=
    fun name hname => ownValue?_eraseStale_of_bare hd hr hbare hname
  have hwidget : ∀ name, Step.toWidget library (node.eraseStale library) name depth =
      Step.toWidget library node name depth := fun name => toWidget_eraseStale name depth
  have hthrough : Step.through (some d) (node.eraseStale library) slot depth =
      Step.through (some d) node slot depth := rfl
  have hinput : ∀ name, Step.toInput (node.eraseStale library) name depth =
      Step.toInput node name depth := fun _ => rfl
  cases rule with
  | widget name gathers => cases gathers <;> simp only [rulePlan, hwidget, hthrough]
  | trace input => rfl
  | literal name => simp only [rulePlan, hown name (List.mem_singleton.mpr rfl)]
  | extract extractor =>
    cases extractor with
    | joinWidgets names => simp only [rulePlan, extractorPlan, hwidget]
    | joinInputs names => rfl
    | concatenate =>
      have hdelimiter := hown "delimiter" List.mem_cons_self
      have hseparator := hown "separator" (List.mem_cons_of_mem _ List.mem_cons_self)
      simp only [rulePlan, extractorPlan, hwidget, separator, List.findSome?_cons,
        List.findSome?_nil, hdelimiter, hseparator]
    | loraList =>
      have hself : node.eraseStale library = node := by
        refine Node.eraseStale_eq_self (Node.isStale_eq_false fun other ho name hname => ?_)
        cases hd.symm.trans ho
        exact hbare name (Definition.mem_bareWidgets hr hname hname)
      rw [hself]
    | scaledSize =>
      have hscale := hown "scale_by" List.mem_cons_self
      simp only [rulePlan, extractorPlan, hinput, scaleFactor, hscale]

end Nodes

section Searches

variable {graph : Graph} {library : NodeLibrary} {settings : Settings} {node : Node}

lemma control?_eraseStale {name : String}
    (h : ∀ target ∈ node.link? name, ∀ consulted, graph.Consults target.source consulted →
      consulted.isStale library 0 = false) (depth : Nat) :
    control? (.ofSettings (graph.mapNodes (Node.eraseStale library)) library settings)
        (node.eraseStale library) name depth =
      control? (.ofSettings graph library settings) node name depth := by
  have hlink : (node.eraseStale library).link? name = node.link? name := rfl
  rw [control?, control?, hlink]
  cases hl : node.link? name with
  | some target =>
    exact plainValueBehind?_mapNodes (Node.keepsWiring_eraseStale library)
      (fun consulted hc => Node.plainValue?_eraseStale (h target hl consulted hc)) _
  | none => exact ownValue?_eraseStale fun _ _ _ => hl

/-- At no node does a stale value have a part in the plan. -/
lemma planFor_eraseStale (hu : graph.StaleUnread library) (hn : node ∈ graph.nodes)
    (param : Param) (slot : Option UInt32) (depth : Nat) :
    planFor (.ofSettings (graph.mapNodes (Node.eraseStale library)) library settings) param
        (node.eraseStale library) slot depth =
      planFor (.ofSettings graph library settings) param node slot depth := by
  have hlib : ∀ graph : Graph, (Search.ofSettings graph library settings).library = library :=
    fun _ => rfl
  have hclass : (node.eraseStale library).classType = node.classType := rfl
  cases hs : node.mode.isSkipped with
  | true =>
    have hs' : (node.eraseStale library).mode.isSkipped = true := hs
    rw [planFor_skipped hs, planFor_skipped hs']
    rfl
  | false =>
    have hs' : (node.eraseStale library).mode.isSkipped = false := hs
    cases hd : library.get? node.classType with
    | none =>
      have hself : node.eraseStale library = node := by
        refine Node.eraseStale_eq_self (Node.isStale_eq_false fun d hd' => ?_)
        cases hd.symm.trans hd'
      rw [hself, planFor_unknown hs hd, planFor_unknown hs hd]
      rfl
    | some d =>
      cases hr : d.rule? param with
      | some rule =>
        rw [planFor_ruled hs hd hr, planFor_ruled hs' hd hr]
        exact rulePlan_eraseStale hd hr (hu.bare node hn hs d hd) slot depth
      | none =>
        rw [planFor_unruled hs hd hr, planFor_unruled hs' hd hr, unruledPlan, unruledPlan]
        cases hw : d.switch with
        | none => rfl
        | some switch =>
          have hcontrol : control? (.ofSettings (graph.mapNodes (Node.eraseStale library)) library
              settings) (node.eraseStale library) switch.control depth =
                control? (.ofSettings graph library settings) node switch.control depth :=
            control?_eraseStale (hu.controls node hn hs d hd switch hw) depth
          simp only [Step.throughSwitch, hcontrol]
          rfl

/-- A plan that gathers comes from a rule that reads the strengths of LoRAs bare, as far as they
have positions. -/
lemma exists_rule_of_gather {search : Search} {param : Param} {slot : Option UInt32} {depth : Nat}
    {entries : List Step} {onward : Step}
    (h : planFor search param node slot depth = .gather entries onward) :
    ∃ d rule, search.library.get? node.classType = some d ∧ d.rule? param = some rule ∧
      ∀ name ∈ strengthWidgets, name ∈ d.widgets → name ∈ rule.bareWidgets d := by
  obtain ⟨-, d, rule, hd, hr, hplan⟩ := exists_rulePlan_of_gather h
  refine ⟨d, rule, hd, hr, fun name hname hw => ?_⟩
  rcases gathers_of_rulePlan hplan with ⟨widget, rfl⟩ | rfl
  · exact hname
  · exact hw

/-- Where no stale value is read, erasing them all changes no fact. -/
theorem facts_eraseStale (hu : graph.StaleUnread library) :
    (graph.mapNodes (Node.eraseStale library)).facts library settings =
      graph.facts library settings := by
  refine facts_mapNodes (Node.keepsWiring_eraseStale library) (fun start param => ?_) ?_
  · exact resolve_mapNodes (Node.keepsWiring_eraseStale library)
      (fun node hn => planFor_eraseStale hu hn param) start
  · rintro id node hn ⟨gathering, hg, slot, depth, entries, onward, hplan⟩ name hname
    cases hn.symm.trans hg
    obtain ⟨d, rule, hd, hr, hstrength⟩ := exists_rule_of_gather hplan
    refine ownValue?_eraseStale fun other ho hw => ?_
    cases hd.symm.trans ho
    exact hu.bare node (Graph.mem_of_node? hn) (isSkipped_of_gather hplan) d hd name
      (Definition.mem_bareWidgets hr (hstrength name hname hw) hw)

end Searches

end Tracing

namespace Workflow

variable {library : NodeLibrary}

/-- In the node that is read the same values are stale. -/
lemma UiNode.isStale_of_node? {origin? : Int → Option Link} {ui : UiNode} {node : Node}
    (h : ui.node? origin? = some node) (index : Nat) :
    node.isStale library index = ui.isStale library origin? index := by
  have hclass : node.classType = ui.classType := by
    obtain ⟨id, -, rfl⟩ := Option.map_eq_some_iff.mp h
    rfl
  rw [Node.isStale, isStale, hclass]
  cases (library.get? ui.classType).bind fun d => d.widgets[index]? with
  | none => rfl
  | some name => exact isSome_link?_of_node? h name

/-- From the node without its stale values the same is read, without its stale values. Only an array
of widget values has any. -/
lemma UiNode.node?_eraseStale (origin? : Int → Option Link) (ui : UiNode) :
    (ui.eraseStale library origin?).node? origin? =
      (ui.node? origin?).map (Node.eraseStale library) := by
  have hstale : ∀ node, ui.node? origin? = some node →
      node.isStale library = ui.isStale library origin? :=
    fun _ h => funext (isStale_of_node? h)
  obtain ⟨uiId, classType, mode, inputs, widgetValues, title⟩ := ui
  cases hid : idText? uiId with
  | none => cases widgetValues with
    | none => simp only [node?, eraseStale, hid, Option.map_none]
    | some value => cases value <;> simp only [node?, eraseStale, hid, Option.map_none]
  | some id =>
    simp only [node?, hid, Option.map_some, Option.some.injEq, forall_eq'] at hstale
    cases widgetValues with
    | none =>
      simp only [node?, eraseStale, hid, Option.map_some, Node.eraseStale]
      rfl
    | some value =>
      cases value with
      | arr values =>
        simp only [node?, eraseStale, hid, Option.map_some, Node.eraseStale, hstale]
        rfl
      | _ =>
        simp only [node?, eraseStale, hid, Option.map_some, Node.eraseStale]
        rfl

section MapNodes

variable {form : Node → Node} (hform : Node.KeepsWiring form)
include hform

lemma Graph.hasNode_mapNodes (graph : Graph) (id : String) :
    (graph.mapNodes form).hasNode id = graph.hasNode id := by
  rw [hasNode, hasNode, node?_mapNodes hform, Option.isSome_map]

lemma Graph.add_mapNodes (graph : Graph) (node : Node) :
    (graph.mapNodes form).add (form node) = (graph.add node).mapNodes form := by
  rw [add, add, add?, add?, hform.id_eq, graph.hasNode_mapNodes hform]
  split
  · rfl
  · simp only [Option.getD_some, mapNodes, List.map_append, List.map_cons, List.map_nil]

lemma Graph.connected_mapNodes (graph : Graph) :
    (graph.mapNodes form).connected = graph.connected.mapNodes form := by
  have hinto : ∀ node : Node,
      (graph.mapNodes form).edgesInto (form node) = graph.edgesInto node := by
    intro node
    simp only [edgesInto, hform.links_eq, hform.id_eq, hasNode_mapNodes hform]
  have hedges : (graph.nodes.map form).flatMap (graph.mapNodes form).edgesInto =
      graph.nodes.flatMap graph.edgesInto := by
    rw [List.flatMap_map]
    exact congrArg graph.nodes.flatMap (funext hinto)
  exact congrArg (Graph.mk (graph.nodes.map form)) hedges

/-- The graph of nodes that keep their wiring is the graph with each node replaced. Induction on the
nodes that are still to be added. -/
lemma Graph.ofNodes_map (nodes : List Node) :
    ofNodes (nodes.map form) = (ofNodes nodes).mapNodes form := by
  have hfold : ∀ graph : Graph, (nodes.map form).foldl add (graph.mapNodes form) =
      (nodes.foldl add graph).mapNodes form := by
    induction nodes with
    | nil => exact fun _ => rfl
    | cons node rest ih =>
      intro graph
      rw [List.map_cons, List.foldl_cons, List.foldl_cons, add_mapNodes hform, ih]
  rw [ofNodes, ofNodes, ← connected_mapNodes hform, ← hfold]
  rfl

end MapNodes

lemma Graph.uiNodes_eraseStale (workflow : UiWorkflow) :
    uiNodes (workflow.eraseStale library) =
      (uiNodes workflow).map (Node.eraseStale library) := by
  simp only [uiNodes, UiWorkflow.eraseStale, List.filterMap_map, List.map_filterMap,
    Function.comp_def, UiNode.node?_eraseStale]

lemma interpret_of_isUiForm {value : Json} (settings : Settings) {workflow : UiWorkflow}
    (hui : isUiForm value = true) (hread : UiWorkflow.ofJson? value = some workflow) :
    interpret value settings =
      .ok ((Graph.ofNodes (Graph.uiNodes workflow)).facts .builtin settings) := by
  rw [interpret, Graph.ofJson, if_pos hui, Graph.ofUi_of_ofJson? hread]
  rfl

/-- Two workflows in the UI form that differ in stale widget values only have the same facts, if
none of these values is read without a look at the link. -/
theorem interpret_eq_of_eraseStale_eq (value other : Json) (settings : Settings)
    (workflow otherWorkflow : UiWorkflow) (hui : isUiForm value = true)
    (hui' : isUiForm other = true) (hread : UiWorkflow.ofJson? value = some workflow)
    (hread' : UiWorkflow.ofJson? other = some otherWorkflow)
    (hsame : workflow.eraseStale .builtin = otherWorkflow.eraseStale .builtin)
    (hunread : (Graph.ofNodes (Graph.uiNodes workflow)).StaleUnread .builtin) :
    interpret value settings = interpret other settings := by
  let erased : Node → Node := Node.eraseStale .builtin
  have hgraph : ∀ workflow : UiWorkflow,
      Graph.ofNodes (Graph.uiNodes (workflow.eraseStale .builtin)) =
        (Graph.ofNodes (Graph.uiNodes workflow)).mapNodes erased := by
    intro workflow
    rw [Graph.uiNodes_eraseStale, Graph.ofNodes_map (Node.keepsWiring_eraseStale .builtin)]
  have herased : (Graph.ofNodes (Graph.uiNodes workflow)).mapNodes erased =
      (Graph.ofNodes (Graph.uiNodes otherWorkflow)).mapNodes erased := by
    rw [← hgraph, ← hgraph, hsame]
  have hunread' : (Graph.ofNodes (Graph.uiNodes otherWorkflow)).StaleUnread .builtin := by
    rw [← Graph.staleUnread_eraseStale_iff]
    exact herased ▸ Graph.staleUnread_eraseStale_iff.mpr hunread
  rw [interpret_of_isUiForm settings hui hread, interpret_of_isUiForm settings hui' hread',
    ← Tracing.facts_eraseStale hunread, ← Tracing.facts_eraseStale hunread']
  exact congrArg (fun graph => Except.ok (graph.facts .builtin settings)) herased

/-- A node in the UI form; the inputs have the given names and numbers of links. -/
def uiNodeJson (id classType : String) (inputs : List (String × Int)) (values : List String) :
    Json :=
  .obj [("id", .str id), ("type", .str classType),
    ("inputs", .arr (inputs.map fun input =>
      .obj [("name", .str input.1), ("link", .num (.int input.2))])),
    ("widgets_values", .arr (values.map .str))]

/-- A row of the link table, from the first output of a node to the first input of another. -/
def linkRow (number : Int) (origin target : String) : Json :=
  .arr [.num (.int number), .str origin, .num (.int 0), .str target, .num (.int 0)]

/-- What is read from a node in the UI form. -/
def uiNodeOf (id classType : String) (inputs : List (String × Int)) (values : List String) :
    UiNode :=
  ⟨.str id, classType, none, inputs.map fun input => ⟨input.1, some input.2, none⟩,
    some (.arr (values.map .str)), none⟩

/-- An encoder with an old text, whose text now comes from a node of its own. -/
def handedText (old : String) : Json :=
  .obj [
    ("nodes", .arr [
      uiNodeJson "9" "SaveImage" [("images", 1)] [],
      uiNodeJson "3" "CLIPTextEncode" [("text", 2)] [old],
      uiNodeJson "2" "PrimitiveString" [] ["new"]]),
    ("links", .arr [linkRow 1 "3" "9", linkRow 2 "2" "3"])]

def handedWorkflow (old : String) : UiWorkflow where
  nodes := [
    uiNodeOf "9" "SaveImage" [("images", 1)] [],
    uiNodeOf "3" "CLIPTextEncode" [("text", 2)] [old],
    uiNodeOf "2" "PrimitiveString" [] ["new"]]
  links := [⟨1, ⟨"3", 0⟩, ⟨"9", 0⟩⟩, ⟨2, ⟨"2", 0⟩, ⟨"3", 0⟩⟩]

/-- The same with one more node: the node that the text comes from has an old text too, since its
own text comes from that node. -/
def relayedText (old : String) : Json :=
  .obj [
    ("nodes", .arr [
      uiNodeJson "9" "SaveImage" [("images", 1)] [],
      uiNodeJson "3" "CLIPTextEncode" [("text", 2)] [],
      uiNodeJson "2" "PrimitiveString" [("value", 3)] [old],
      uiNodeJson "1" "PrimitiveString" [] ["new"]]),
    ("links", .arr [linkRow 1 "3" "9", linkRow 2 "2" "3", linkRow 3 "1" "2"])]

def relayedWorkflow (old : String) : UiWorkflow where
  nodes := [
    uiNodeOf "9" "SaveImage" [("images", 1)] [],
    uiNodeOf "3" "CLIPTextEncode" [("text", 2)] [],
    uiNodeOf "2" "PrimitiveString" [("value", 3)] [old],
    uiNodeOf "1" "PrimitiveString" [] ["new"]]
  links := [⟨1, ⟨"3", 0⟩, ⟨"9", 0⟩⟩, ⟨2, ⟨"2", 0⟩, ⟨"3", 0⟩⟩, ⟨3, ⟨"1", 0⟩, ⟨"2", 0⟩⟩]

lemma ofJson?_handedText (old : String) :
    UiWorkflow.ofJson? (handedText old) = some (handedWorkflow old) := rfl

lemma ofJson?_relayedText (old : String) :
    UiWorkflow.ofJson? (relayedText old) = some (relayedWorkflow old) := rfl

/-- The only value of a node is gone when stale values are erased, if its widget is linked. -/
lemma eraseStale_uiNodeOf {library : NodeLibrary} {origin? : Int → Option Link}
    {id classType input old : String} {number : Int} {d : Definition}
    (hget : library.get? classType = some d) (hwidget : d.widgets[0]? = some input)
    (hname : input ≠ "") (horigin : (origin? number).isSome = true) :
    (uiNodeOf id classType [(input, number)] [old]).eraseStale library origin? =
      { uiNodeOf id classType [(input, number)] [] with
        widgetValues := some (.arr [.null]) } := by
  let ui := uiNodeOf id classType [(input, number)] [old]
  have hstale : ui.isStale library origin? 0 = true := by
    obtain ⟨target, htarget⟩ := Option.isSome_iff_exists.mp horigin
    have hget' : library.get? ui.classType = some d := hget
    have hlinked : ui.linkedInputs origin? = [(input, .link target)] := by
      simp [UiNode.linkedInputs, ui, uiNodeOf, UiInput.nodeInputName, htarget, hname]
    simp [UiNode.isStale, hget', hwidget, hlinked]
  have herase : ui.eraseStale library origin? =
      { uiNodeOf id classType [(input, number)] [] with
        widgetValues := some (.arr
          [if ui.isStale library origin? 0 then .null else .str old]) } := rfl
  rw [herase, if_pos hstale]

lemma eraseStale_handedWorkflow (old old' : String) :
    (handedWorkflow old).eraseStale .builtin = (handedWorkflow old').eraseStale .builtin := by
  let origin? := UiLink.origin? (handedWorkflow old).links
  have herased : ∀ old, (handedWorkflow old).eraseStale .builtin =
      ⟨[(uiNodeOf "9" "SaveImage" [("images", 1)] []).eraseStale .builtin origin?,
        (uiNodeOf "3" "CLIPTextEncode" [("text", 2)] [old]).eraseStale .builtin origin?,
        (uiNodeOf "2" "PrimitiveString" [] ["new"]).eraseStale .builtin origin?],
        (handedWorkflow old).links⟩ := fun _ => rfl
  have hencoder : ∀ old, (uiNodeOf "3" "CLIPTextEncode" [("text", 2)] [old]).eraseStale .builtin
      origin? = _ :=
    fun _ => eraseStale_uiNodeOf NodeLibrary.get?_builtin_textEncoder rfl (by decide) rfl
  rw [herased, herased, hencoder, hencoder]
  rfl

lemma eraseStale_relayedWorkflow (old old' : String) :
    (relayedWorkflow old).eraseStale .builtin = (relayedWorkflow old').eraseStale .builtin := by
  let origin? := UiLink.origin? (relayedWorkflow old).links
  have herased : ∀ old, (relayedWorkflow old).eraseStale .builtin =
      ⟨[(uiNodeOf "9" "SaveImage" [("images", 1)] []).eraseStale .builtin origin?,
        (uiNodeOf "3" "CLIPTextEncode" [("text", 2)] []).eraseStale .builtin origin?,
        (uiNodeOf "2" "PrimitiveString" [("value", 3)] [old]).eraseStale .builtin origin?,
        (uiNodeOf "1" "PrimitiveString" [] ["new"]).eraseStale .builtin origin?],
        (relayedWorkflow old).links⟩ := fun _ => rfl
  have hholder : ∀ old, (uiNodeOf "2" "PrimitiveString" [("value", 3)] [old]).eraseStale .builtin
      origin? = _ :=
    fun _ => eraseStale_uiNodeOf NodeLibrary.get?_builtin_primitiveString rfl (by decide) rfl
  rw [herased, herased, hholder, hholder]
  rfl

lemma staleUnread_handedWorkflow (old : String) :
    (Graph.ofNodes (Graph.uiNodes (handedWorkflow old))).StaleUnread .builtin := by
  have hnodes : ∀ node ∈ (Graph.ofNodes (Graph.uiNodes (handedWorkflow old))).nodes,
      ∀ d ∈ NodeLibrary.builtin.get? node.classType,
        d.switch = none ∧ ∀ name ∈ d.bareWidgets, node.link? name = none := by
    intro node hn d hd
    have hn' : node ∈ ([
        ⟨"9", "SaveImage", none, [("images", .link ⟨"3", 0⟩)], [], .active⟩,
        ⟨"3", "CLIPTextEncode", none, [("text", .link ⟨"2", 0⟩)], [.str old], .active⟩,
        ⟨"2", "PrimitiveString", none, [], [.str "new"], .active⟩] : List Node) := hn
    simp only [List.mem_cons, List.not_mem_nil, or_false] at hn'
    rcases hn' with rfl | rfl | rfl
    · cases NodeLibrary.get?_builtin_saveImage.symm.trans hd
      exact ⟨rfl, fun _ hname => absurd hname List.not_mem_nil⟩
    · cases NodeLibrary.get?_builtin_textEncoder.symm.trans hd
      exact ⟨rfl, fun _ hname => absurd hname List.not_mem_nil⟩
    · cases NodeLibrary.get?_builtin_primitiveString.symm.trans hd
      exact ⟨rfl, fun _ _ => rfl⟩
  refine ⟨fun node hn _ d hd => (hnodes node hn d hd).2, fun node hn _ d hd switch hs => ?_⟩
  cases (hnodes node hn d hd).1.symm.trans hs

/-- The old text of the encoder makes no difference. -/
theorem interpret_handedText :
    (isUiForm (handedText "old") = true ∧ isUiForm (handedText "older") = true ∧
      UiWorkflow.ofJson? (handedText "old") = some (handedWorkflow "old") ∧
      UiWorkflow.ofJson? (handedText "older") = some (handedWorkflow "older") ∧
      (handedWorkflow "old").eraseStale .builtin = (handedWorkflow "older").eraseStale .builtin ∧
      (Graph.ofNodes (Graph.uiNodes (handedWorkflow "old"))).StaleUnread .builtin) ∧
    interpret (handedText "old") {} = interpret (handedText "older") {} :=
  ⟨⟨rfl, rfl, ofJson?_handedText "old", ofJson?_handedText "older",
      eraseStale_handedWorkflow "old" "older", staleUnread_handedWorkflow "old"⟩,
    interpret_eq_of_eraseStale_eq _ _ {} _ _ rfl rfl (ofJson?_handedText "old")
      (ofJson?_handedText "older") (eraseStale_handedWorkflow "old" "older")
      (staleUnread_handedWorkflow "old")⟩

end Workflow

namespace Tracing

open Workflow

section Relayed

def relayedSearch (old : String) : Search :=
  .ofSettings (.ofNodes (Graph.uiNodes (relayedWorkflow old))) .builtin {}

def relayedEncoder : Node :=
  ⟨"3", "CLIPTextEncode", none, [("text", .link ⟨"2", 0⟩)], [], .active⟩

/-- A holder of an old text, whose text is linked to that of another node. -/
def relayedHolder (old : String) : Node :=
  ⟨"2", "PrimitiveString", none, [("value", .link ⟨"1", 0⟩)], [.str old], .active⟩

variable {old : String}

lemma planFor_relayedEncoder : planFor (relayedSearch old) .prompt relayedEncoder (some 0) 1 =
    .single (.follow ⟨"2", 0⟩ 2) := by
  have hget : (relayedSearch old).library.get? relayedEncoder.classType = some _ :=
    NodeLibrary.get?_builtin_textEncoder
  have hrule : (Catalogue.textEncoder "CLIPTextEncode" ["text"] "text").rule? .prompt =
      some (.widget "text" false) := rfl
  rw [planFor_ruled rfl hget hrule]
  rfl

/-- Whatever its text is linked to, the holder answers with what stands in its widget. -/
lemma planFor_relayedHolder :
    planFor (relayedSearch old) .prompt (relayedHolder old) (some 0) 2 =
      .single (.answer (some (.str old))) := by
  have hget : (relayedSearch old).library.get? (relayedHolder old).classType = some _ :=
    NodeLibrary.get?_builtin_primitiveString
  have hrule : (Catalogue.textHolder "PrimitiveString" "value").rule? .prompt =
      some (.literal "value") := rfl
  have hown : ownValue? .builtin (relayedHolder old) "value" = some (.str old) := by
    have hliteral : (relayedHolder old).literal? "value" = none := rfl
    have hholder : NodeLibrary.builtin.get? (relayedHolder old).classType = some _ :=
      NodeLibrary.get?_builtin_primitiveString
    rw [ownValue?, hliteral, positional?, hholder]
    rfl
  rw [planFor_ruled rfl hget hrule]
  exact congrArg (fun value => Plan.single (.answer value)) hown

lemma positivePrompt_relayed
    (hsinks : (sinks ⟨NodeLibrary.catalogues⟩ (relayedSearch old).graph).map Node.id =
      [saveOfSwitch].map Node.id) :
    ((relayedSearch old).graph.facts .builtin {}).positivePrompt = some old := by
  have hlib : (relayedSearch old).library = .builtin := rfl
  have hdepth : 2 ≤ (relayedSearch old).maxDepth := by
    change 2 ≤ 64
    decide
  exact positivePrompt_of_sink hsinks
    (Search.value_resolve_of_two_links (relayedSearch old) .prompt hdepth (by decide) (by decide)
      rfl (planFor_saveOfSwitch hlib .prompt none 0) rfl planFor_relayedEncoder rfl
      planFor_relayedHolder)

end Relayed

end Tracing

namespace Workflow

/-- What a holder of texts had in its widget before that was linked is taken for its text. -/
theorem interpret_relayedText_ne :
    (isUiForm (relayedText "old") = true ∧ isUiForm (relayedText "older") = true ∧
      UiWorkflow.ofJson? (relayedText "old") = some (relayedWorkflow "old") ∧
      UiWorkflow.ofJson? (relayedText "older") = some (relayedWorkflow "older") ∧
      (relayedWorkflow "old").eraseStale .builtin =
        (relayedWorkflow "older").eraseStale .builtin) ∧
    interpret (relayedText "old") {} ≠ interpret (relayedText "older") {} := by
  refine ⟨⟨rfl, rfl, ofJson?_relayedText "old", ofJson?_relayedText "older",
    eraseStale_relayedWorkflow "old" "older"⟩, fun h => ?_⟩
  have hold : ((Tracing.relayedSearch "old").graph.facts .builtin {}).positivePrompt =
      some "old" := Tracing.positivePrompt_relayed (by decide +kernel)
  have holder : ((Tracing.relayedSearch "older").graph.facts .builtin {}).positivePrompt =
      some "older" := Tracing.positivePrompt_relayed (by decide +kernel)
  have hfacts : (Tracing.relayedSearch "old").graph.facts .builtin {} =
      (Tracing.relayedSearch "older").graph.facts .builtin {} := by
    rw [interpret_of_isUiForm {} rfl (ofJson?_relayedText "old"),
      interpret_of_isUiForm {} rfl (ofJson?_relayedText "older")] at h
    exact Except.ok.inj h
  rw [hfacts, holder] at hold
  exact absurd hold (by decide)

end Workflow

end ImageRecipe
