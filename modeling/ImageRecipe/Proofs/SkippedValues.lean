import ImageRecipe.Proofs.BuiltinLibrary
import ImageRecipe.Proofs.LinkedInputs
import ImageRecipe.Proofs.Routes
import ImageRecipe.Proofs.Upstream

/-!
# Values of nodes that do not run

A search that comes to a node that does not run goes on through one of its links
and reads none of its literals and widgets. So these can be erased without a
change to what is found. The one exception is the control of a switch: behind a
link it is read from whatever node is there, whether that runs or not.
-/
namespace ImageRecipe

namespace Workflow

namespace Node

/-- The node with nothing left of its inputs and widgets but the links. -/
def linksOnly (node : Node) : Node :=
  { node with
    inputs := node.links.map fun link => (link.input, .link link.target)
    widgets := [] }

/-- The node without its values if it does not run. -/
def eraseSkipped (node : Node) : Node := if node.mode.isSkipped then node.linksOnly else node

variable {node : Node} {name : String}

lemma eraseSkipped_of_skipped (h : node.mode.isSkipped = true) :
    node.eraseSkipped = node.linksOnly := if_pos h

lemma eraseSkipped_of_running (h : node.mode.isSkipped = false) : node.eraseSkipped = node := by
  rw [eraseSkipped, h, if_neg Bool.false_ne_true]

@[simp] lemma links_linksOnly (node : Node) : node.linksOnly.links = node.links := by
  have hlink : ∀ link : NamedLink, ((Input.link link.target).link?.map fun target =>
      (⟨link.input, target⟩ : NamedLink)) = some link := fun _ => rfl
  rw [links, linksOnly, List.filterMap_map]
  exact (List.filterMap_congr fun link _ => hlink link).trans List.filterMap_some

lemma findsLinks_linksOnly (node : Node) : node.linksOnly.FindsLinks := by
  refine findsLinks_of_find? fun _ _ entry hfind => ?_
  obtain ⟨link, -, rfl⟩ := List.mem_map.mp (List.mem_of_find?_eq_some hfind)
  rfl

lemma FindsLinks.link?_linksOnly (h : node.FindsLinks) (name : String) :
    node.linksOnly.link? name = node.link? name := by
  rw [h.link?_eq, node.findsLinks_linksOnly.link?_eq, links_linksOnly]

@[simp] lemma id_eraseSkipped (node : Node) : node.eraseSkipped.id = node.id := by
  unfold eraseSkipped
  split <;> rfl

@[simp] lemma classType_eraseSkipped (node : Node) :
    node.eraseSkipped.classType = node.classType := by
  unfold eraseSkipped
  split <;> rfl

@[simp] lemma mode_eraseSkipped (node : Node) : node.eraseSkipped.mode = node.mode := by
  unfold eraseSkipped
  split <;> rfl

@[simp] lemma links_eraseSkipped (node : Node) : node.eraseSkipped.links = node.links := by
  unfold eraseSkipped
  split
  · exact node.links_linksOnly
  · rfl

/-- What is made of a node has its id, type, mode and links. -/
structure KeepsWiring (form : Node → Node) : Prop where
  id_eq : ∀ node, (form node).id = node.id
  classType_eq : ∀ node, (form node).classType = node.classType
  mode_eq : ∀ node, (form node).mode = node.mode
  links_eq : ∀ node, (form node).links = node.links

lemma keepsWiring_eraseSkipped : KeepsWiring eraseSkipped :=
  ⟨id_eraseSkipped, classType_eraseSkipped, mode_eraseSkipped, links_eraseSkipped⟩

lemma KeepsWiring.firstLink?_eq {form : Node → Node} (h : KeepsWiring form) (node : Node) :
    (form node).firstLink? = node.firstLink? := congrArg List.head? (h.links_eq node)

end Node

namespace Graph

/-- The graph without the values of the nodes that do not run. -/
def eraseSkipped (graph : Graph) : Graph :=
  { graph with nodes := graph.nodes.map Node.eraseSkipped }

/-- No switch that runs has its control looked for at a node that does not run. -/
def ControlsRun (graph : Graph) (library : NodeLibrary) : Prop :=
  ∀ node ∈ graph.nodes, node.mode.isSkipped = false →
    ∀ d, library.get? node.classType = some d → ∀ switch, d.switch = some switch →
      ∀ target, node.link? switch.control = some target →
        ∀ consulted, graph.Consults target.source consulted → consulted.mode.isSkipped = false

/-- The graph with each node replaced by what `form` makes of it. -/
def mapNodes (form : Node → Node) (graph : Graph) : Graph :=
  { graph with nodes := graph.nodes.map form }

section MapNodes

variable {form : Node → Node} (hform : Node.KeepsWiring form)
include hform

lemma node?_mapNodes (graph : Graph) (id : String) :
    (graph.mapNodes form).node? id = (graph.node? id).map form := by
  have hsame : ((fun node : Node => node.id == id) ∘ form) = fun node => node.id == id :=
    funext fun node => congrArg (· == id) (hform.id_eq node)
  rw [node?, mapNodes, List.find?_map, hsame]
  rfl

lemma isLeaf_mapNodes (graph : Graph) (id : String) :
    (graph.mapNodes form).isLeaf id = graph.isLeaf id := by
  rw [isLeaf, isLeaf, hasNode, hasNode, node?_mapNodes hform, Option.isSome_map]
  rfl

/-- Suppose that the plain value of a `whole` node is left alone. If only such nodes are consulted
in one of the two graphs, so it is in the other, since the same nodes are consulted. -/
lemma forall_consults_mapNodes {whole : Node → Prop}
    (hwhole : ∀ node, whole (form node) ↔ whole node)
    (hvalue : ∀ node, whole node → Tracing.plainValue? (form node) = Tracing.plainValue? node)
    (graph : Graph) (id : String) :
    (∀ node, (graph.mapNodes form).Consults id node → whole node) ↔
      ∀ node, graph.Consults id node → whole node := by
  constructor
  · intro h node hc
    induction hc with
    | here hn =>
      refine (hwhole _).mp (h _ (.here ?_))
      rw [node?_mapNodes hform, hn]
      rfl
    | @behind id first node link hn hv hl hw ih =>
      have hn' : (graph.mapNodes form).node? id = some (form first) := by
        rw [node?_mapNodes hform, hn]
        rfl
      have hv' : Tracing.plainValue? (form first) = none := by
        rw [hvalue first ((hwhole first).mp (h _ (.here hn'))), hv]
      have hl' : (form first).firstLink? = some link := (hform.firstLink?_eq first).trans hl
      exact ih fun node hnode => h node (.behind hn' hv' hl' hnode)
  · intro h node hc
    induction hc with
    | here hn =>
      rw [node?_mapNodes hform] at hn
      obtain ⟨original, ho, rfl⟩ := Option.map_eq_some_iff.mp hn
      exact (hwhole original).mpr (h original (.here ho))
    | behind hn hv hl hw ih =>
      rw [node?_mapNodes hform] at hn
      obtain ⟨original, ho, rfl⟩ := Option.map_eq_some_iff.mp hn
      rw [hvalue original (h original (.here ho))] at hv
      rw [hform.firstLink?_eq] at hl
      exact ih fun node hnode => h node (.behind ho hv hl hnode)

end MapNodes

variable {graph : Graph} {id : String}

lemma plainValue?_eraseSkipped {node : Node} (h : node.mode.isSkipped = false) :
    Tracing.plainValue? node.eraseSkipped = Tracing.plainValue? node := by
  rw [Node.eraseSkipped_of_running h]

/-- Erasing leaves alone whether switches have their controls looked for at nodes that run. -/
lemma controlsRun_eraseSkipped_iff {library : NodeLibrary} :
    graph.eraseSkipped.ControlsRun library ↔ graph.ControlsRun library := by
  have hsame : ∀ source : String,
      (∀ node, graph.eraseSkipped.Consults source node → node.mode.isSkipped = false) ↔
        ∀ node, graph.Consults source node → node.mode.isSkipped = false := by
    refine forall_consults_mapNodes Node.keepsWiring_eraseSkipped (fun node => ?_)
      (fun _ => plainValue?_eraseSkipped) graph
    rw [node.mode_eraseSkipped]
  constructor
  · intro h node hn hrun d hd switch hs target ht
    have hmem : node ∈ graph.eraseSkipped.nodes :=
      List.mem_map.mpr ⟨node, hn, Node.eraseSkipped_of_running hrun⟩
    exact (hsame target.source).mp (h node hmem hrun d hd switch hs target ht)
  · intro h node hn hrun d hd switch hs target ht
    obtain ⟨original, ho, rfl⟩ := List.mem_map.mp hn
    rw [Node.mode_eraseSkipped] at hrun
    rw [Node.eraseSkipped_of_running hrun] at hd ht
    exact (hsame target.source).mpr (h original ho hrun d hd switch hs target ht)

lemma controlsRun_of_eraseSkipped_eq {other : Graph} {library : NodeLibrary}
    (hsame : graph.eraseSkipped = other.eraseSkipped) (h : graph.ControlsRun library) :
    other.ControlsRun library := by
  rw [← controlsRun_eraseSkipped_iff, ← hsame, controlsRun_eraseSkipped_iff]
  exact h

end Graph

end Workflow

namespace Definition

variable {d : Definition} {node other : Workflow.Node} {slot : Option UInt32} {name : String}

/-- The input that stands in for an output slot is chosen by the links only. -/
lemma bypassInput?_congr (hlinks : node.links = other.links)
    (hlink : ∀ name, node.link? name = other.link? name) :
    d.bypassInput? node slot = d.bypassInput? other slot := by
  have hfirst : node.firstLink? = other.firstLink? := congrArg List.head? hlinks
  simp only [bypassInput?, undeclaredInput?, typedInput?, hlinks, hlink, hfirst]

end Definition

namespace Tracing

open Workflow

section Nodes

variable {node : Node} (slot : Option UInt32) (depth : Nat)

lemma standIn?_linksOnly (hf : node.FindsLinks) (definition : Option Definition) :
    standIn? definition node.linksOnly slot = standIn? definition node slot := by
  have hlink : node.linksOnly.link? = node.link? := funext hf.link?_linksOnly
  unfold standIn?
  cases definition with
  | none =>
    have hfirst : node.linksOnly.firstLink? = node.firstLink? :=
      congrArg List.head? node.links_linksOnly
    simp only [hfirst, hlink]
  | some d =>
    have hinput : d.bypassInput? node.linksOnly slot = d.bypassInput? node slot :=
      Definition.bypassInput?_congr node.links_linksOnly hf.link?_linksOnly
    simp only [hinput, hlink]

lemma through_linksOnly (hf : node.FindsLinks) (definition : Option Definition) :
    Step.through definition node.linksOnly slot depth =
      Step.through definition node slot depth := by
  rw [through_eq_standIn? slot depth node.findsLinks_linksOnly, standIn?_linksOnly slot hf,
    through_eq_standIn? slot depth hf]

end Nodes

section Searches

variable {graph : Graph} {library : NodeLibrary} {settings : Settings}

lemma plainValueBehind?_mapNodes {form : Node → Node} (hform : Node.KeepsWiring form)
    {source : String}
    (h : ∀ node, graph.Consults source node → plainValue? (form node) = plainValue? node)
    (steps : Nat) :
    plainValueBehind? (graph.mapNodes form) steps source =
      plainValueBehind? graph steps source := by
  refine plainValueBehind?_congr (fun id _ hn => ?_) (fun node hc => ?_) steps
  · rw [Graph.node?_mapNodes hform, hn]
    rfl
  · refine ⟨form node, ?_, h node hc, fun _ => hform.firstLink?_eq node⟩
    rw [Graph.node?_mapNodes hform, hc.node?_eq]
    rfl

variable (graph settings) in
lemma control?_eraseSkipped {node : Node} {name : String}
    (h : ∀ target, node.link? name = some target →
      ∀ other, graph.Consults target.source other → other.mode.isSkipped = false) (depth : Nat) :
    control? (.ofSettings graph.eraseSkipped library settings) node name depth =
      control? (.ofSettings graph library settings) node name depth := by
  unfold control?
  cases hl : node.link? name with
  | none => rfl
  | some target =>
    exact plainValueBehind?_mapNodes Node.keepsWiring_eraseSkipped
      (fun other ho => Graph.plainValue?_eraseSkipped (h target hl other ho)) _

/-- A node that does not run is passed through along its links. One that runs is left as it is, and
so is the control that it may read. -/
lemma planFor_eraseSkipped (hf : graph.SkippedFindLinks) (hc : graph.ControlsRun library)
    {node : Node} (hn : node ∈ graph.nodes) (param : Param) (slot : Option UInt32) (depth : Nat) :
    planFor (.ofSettings graph.eraseSkipped library settings) param node.eraseSkipped slot depth =
      planFor (.ofSettings graph library settings) param node slot depth := by
  cases hs : node.mode.isSkipped with
  | true =>
    have hs' : node.linksOnly.mode.isSkipped = true := hs
    rw [Node.eraseSkipped_of_skipped hs, planFor_skipped hs, planFor_skipped hs']
    exact congrArg Plan.single (through_linksOnly slot depth (hf node hn hs) _)
  | false =>
    rw [Node.eraseSkipped_of_running hs]
    refine planFor_congr rfl rfl fun _ d hd _ switch hswitch => ?_
    exact control?_eraseSkipped graph settings (hc node hn hs d hd switch hswitch) depth

/-- Searches are the same if the plans are the same at every node. -/
lemma resolve_mapNodes {form : Node → Node} (hform : Node.KeepsWiring form) {param : Param}
    (hplan : ∀ node ∈ graph.nodes, ∀ slot depth,
      planFor (.ofSettings (graph.mapNodes form) library settings) param (form node) slot depth =
        planFor (.ofSettings graph library settings) param node slot depth) (start : String) :
    (Search.ofSettings (graph.mapNodes form) library settings).resolve start param =
      (Search.ofSettings graph library settings).resolve start param := by
  have hdepth : (Search.ofSettings (graph.mapNodes form) library settings).maxDepth =
      (Search.ofSettings graph library settings).maxDepth := rfl
  refine Search.resolve_congr hdepth (fun id slot depth => ?_) start
  have hnode : (Search.ofSettings (graph.mapNodes form) library settings).graph.node? id =
      (graph.node? id).map form := Graph.node?_mapNodes hform graph id
  have hnode' : (Search.ofSettings graph library settings).graph.node? id = graph.node? id := rfl
  rw [Search.plan?, Search.plan?, hnode, hnode']
  cases hn : graph.node? id with
  | none => rfl
  | some node => exact congrArg some (hplan node (Graph.mem_of_node? hn) slot depth)

end Searches

/-- All that is gathered is noted under ids of which `allowed` holds, if that was so before. -/
def Walk.GathersOnly (allowed : String → Prop) {α : Type} (walk : Walk α) : Prop :=
  ∀ trail, (∀ entry ∈ trail.gathered, allowed entry.1) →
    ∀ entry ∈ (walk.run trail).2.gathered, allowed entry.1

section Gathering

variable {search : Search} {param : Param}

/-- There is a node with the id at which a plan gathers values. -/
def Search.GathersAt (search : Search) (param : Param) (id : String) : Prop :=
  ∃ node, search.graph.node? id = some node ∧ ∃ slot depth entries onward,
    planFor search param node slot depth = .gather entries onward

/-- Induction on the room that is left. -/
lemma gathersOnly_visit (room : Nat) (id : String) (slot : Option UInt32) (depth : Nat) :
    (search.visit param room id slot depth).GathersOnly (search.GathersAt param) := by
  induction room generalizing id slot depth with
  | zero => exact fun _ h => h
  | succ room ih =>
    intro trail htrail
    by_cases hr : search.Refuses id depth trail
    · rwa [Search.run_visit_refused search param hr]
    rw [Search.run_visit_entered search param hr]
    cases hn : search.graph.node? id with
    | none => exact htrail
    | some node =>
      have hplan : (Walk.carryOut (search.visitBehind param room) id
          (planFor search param node slot depth)).GathersOnly (search.GathersAt param) := by
        refine Walk.carryOut_of_visits (fun _ _ h => h)
          (fun hwalk hnext trail h => hnext _ _ (hwalk trail h))
          (fun target depth => ih target.source target.slot depth) ?_
        intro entries onward hgather value trail h entry hentry
        rcases List.mem_append.mp hentry with hold | hnew
        · exact h entry hold
        · rw [List.mem_singleton.mp hnew]
          exact ⟨node, hn, slot, depth, entries, onward, hgather⟩
      exact hplan (trail.enter id) htrail

/-- What is collected from sinks was gathered at nodes with plans that gather. Induction on the
sinks, before each of which the gathered values are cleared. -/
lemma gathersAt_of_mem_collect (nodes : List Node) (trail : Trail) :
    ∀ entry ∈ ((search.collect param nodes).run trail).1, search.GathersAt param entry.1 := by
  induction nodes generalizing trail with
  | nil => exact fun _ h => absurd h List.not_mem_nil
  | cons node nodes ih =>
    rw [Search.run_collect_cons]
    dsimp only
    split
    · exact ih _
    · exact gathersOnly_visit search.maxPath node.id none 0 _ fun _ h => absurd h List.not_mem_nil

end Gathering

section Graphs

variable {graph : Graph} {library : NodeLibrary} {settings : Settings}

/-- The plan of a node that does not run gathers nothing. -/
lemma isSkipped_of_gather {search : Search} {param : Param} {node : Node} {slot : Option UInt32}
    {depth : Nat} {entries : List Step} {onward : Step}
    (h : planFor search param node slot depth = .gather entries onward) :
    node.mode.isSkipped = false := (exists_rulePlan_of_gather h).1

/-- A LoRA's strengths are read at its loader. If its widgets are left as they are, so are they. -/
lemma lora?_mapNodes {form : Node → Node} (hform : Node.KeepsWiring form) {entry : String × Json}
    {node : Node} (hn : graph.node? entry.1 = some node)
    (hown : ∀ name ∈ ["strength_model", "strength", "strength_clip"],
      ownValue? library (form node) name = ownValue? library node name) :
    lora? (.ofSettings (graph.mapNodes form) library settings) entry =
      lora? (.ofSettings graph library settings) entry := by
  have hn' : (graph.mapNodes form).node? entry.1 = some (form node) := by
    rw [Graph.node?_mapNodes hform, hn]
    rfl
  have hmodel := hown "strength_model" (by decide)
  have hsingle := hown "strength" (by decide)
  have hclip := hown "strength_clip" (by decide)
  refine Search.lora?_congr fun value => ?_
  simp only [loraOfLoader?, Search.ofSettings, hn, hn', List.findSome?_cons, List.findSome?_nil,
    hmodel, hsingle, hclip, Option.bind_eq_bind, Option.bind_some]

lemma sinks_mapNodes {form : Node → Node} (hform : Node.KeepsWiring form) (graph : Graph)
    (library : NodeLibrary) :
    sinks library (graph.mapNodes form) = (sinks library graph).map form := by
  have hrank : ∀ node : Node, modeRank (form node) = modeRank node := by
    intro node
    rw [modeRank, modeRank, hform.mode_eq]
  have hsink : ∀ node : Node, sinkRank? library (form node) = sinkRank? library node := by
    intro node
    rw [sinkRank?, sinkRank?, hform.classType_eq, hrank]
  have hsinks : rankedSinks library (graph.mapNodes form) =
      (rankedSinks library graph).map fun entry => (entry.1, form entry.2) := by
    simp only [rankedSinks, Graph.mapNodes, List.filterMap_map, List.map_filterMap,
      Option.map_map, Function.comp_def, hsink]
  have hleaves : rankedLeaves (graph.mapNodes form) =
      (rankedLeaves graph).map fun entry => (entry.1, form entry.2) := by
    have hnodes : (graph.mapNodes form).nodes = graph.nodes.map form := rfl
    simp only [rankedLeaves, hnodes, List.filter_map, List.map_map, Function.comp_def,
      hform.id_eq, Graph.isLeaf_mapNodes hform, hrank, hform.firstLink?_eq]
  rw [sinks, sinks, hsinks, hleaves, List.isEmpty_map, ← apply_ite (List.map _), byRank_map]
  rfl

/-- The facts are the same if searches are the same from everywhere, and so are the widgets in which
loaders keep the strengths of LoRAs. -/
theorem facts_mapNodes {form : Node → Node} (hform : Node.KeepsWiring form)
    (hresolve : ∀ start param,
      (Search.ofSettings (graph.mapNodes form) library settings).resolve start param =
        (Search.ofSettings graph library settings).resolve start param)
    (hown : ∀ id node, graph.node? id = some node →
      (Search.ofSettings graph library settings).GathersAt .lora id →
        ∀ name ∈ ["strength_model", "strength", "strength_clip"],
          ownValue? library (form node) name = ownValue? library node name) :
    (graph.mapNodes form).facts library settings = graph.facts library settings := by
  have hids : (sinks library graph).map Node.id =
      (sinks library (graph.mapNodes form)).map Node.id := by
    rw [sinks_mapNodes hform, List.map_map]
    exact List.map_congr_left fun node _ => (hform.id_eq node).symm
  have hfacts := Search.facts_congr (fun start param => (hresolve start param).symm) hids
    fun trail entry hentry => by
      have hgathers := gathersAt_of_mem_collect (sinks library graph) trail entry hentry
      obtain ⟨node, hn, -⟩ := id hgathers
      exact (lora?_mapNodes hform hn (hown entry.1 node hn hgathers)).symm
  exact congrArg (fun walk => (walk.run .empty).1) hfacts.symm

lemma facts_eraseSkipped (hf : graph.SkippedFindLinks) (hc : graph.ControlsRun library) :
    graph.eraseSkipped.facts library settings = graph.facts library settings := by
  refine facts_mapNodes Node.keepsWiring_eraseSkipped (fun start param => ?_) ?_
  · exact resolve_mapNodes Node.keepsWiring_eraseSkipped
      (fun node hn => planFor_eraseSkipped hf hc hn param) start
  rintro id node hn ⟨gathering, hg, slot, depth, entries, onward, hplan⟩ name -
  cases hn.symm.trans hg
  rw [Node.eraseSkipped_of_running (isSkipped_of_gather hplan)]

end Graphs

/-- Graphs that are the same but for values of nodes that do not run have the same facts, unless a
switch reads its control from such a node. -/
theorem facts_eq_of_eraseSkipped_eq (graph other : Graph) (library : NodeLibrary)
    (settings : Settings) (hsame : graph.eraseSkipped = other.eraseSkipped)
    (hf : graph.SkippedFindLinks) (hf' : other.SkippedFindLinks)
    (hc : graph.ControlsRun library) :
    graph.facts library settings = other.facts library settings := by
  have hc' := Graph.controlsRun_of_eraseSkipped_eq hsame hc
  rw [← facts_eraseSkipped hf hc, hsame, facts_eraseSkipped hf' hc']

def encoderOf (id text : String) (mode : Mode) : Node :=
  ⟨id, "CLIPTextEncode", none, [("text", .literal (.str text))], [], mode⟩

/-- The number of a branch, in a node of its own. -/
def selectionOf (number : Int) (mode : Mode) : Node :=
  ⟨"5", "PrimitiveInt", none, [("value", .literal (.num (.int number)))], [], mode⟩

def promptSwitch : Node :=
  ⟨"3", "ImpactSwitch", none,
    [("select", .link ⟨"5", 0⟩), ("input1", .link ⟨"1", 0⟩), ("input2", .link ⟨"2", 0⟩)], [],
    .active⟩

def saveOfSwitch : Node := ⟨"9", "SaveImage", none, [("images", .link ⟨"3", 0⟩)], [], .active⟩

/-- A switch between two prompts. -/
def switchedGraph (first selection : Node) : Graph :=
  .ofNodes [first, encoderOf "2" "second" .active, promptSwitch, selection, saveOfSwitch]

lemma controlsRun_switchedGraph :
    (switchedGraph (encoderOf "1" "first" .muted) (selectionOf 1 .active)).ControlsRun
      .builtin := by
  let graph := switchedGraph (encoderOf "1" "first" .muted) (selectionOf 1 .active)
  have hsource : ∀ node ∈ graph.nodes, ∀ d ∈ NodeLibrary.builtin.get? node.classType,
      ∀ switch ∈ d.switch, ∀ target ∈ node.link? switch.control, target.source = "5" := by
    rw [NodeLibrary.builtin_eq_catalogues]
    decide +kernel
  intro node hn _ d hd switch hs target ht consulted hc
  rw [hsource node hn d hd switch hs target ht] at hc
  cases hc with
  | here hnode =>
    cases hnode
    rfl
  | behind hnode hv =>
    cases hnode
    cases hv

/-- The text of an encoder that does not run makes no difference. -/
theorem facts_switchedGraph_mutedText :
    let graph := switchedGraph (encoderOf "1" "first" .muted) (selectionOf 1 .active)
    let other := switchedGraph (encoderOf "1" "other" .muted) (selectionOf 1 .active)
    (graph.eraseSkipped = other.eraseSkipped ∧ graph.SkippedFindLinks ∧ other.SkippedFindLinks ∧
      graph.ControlsRun .builtin) ∧ graph.facts .builtin {} = other.facts .builtin {} := by
  intro graph other
  have hsame : graph.eraseSkipped = other.eraseSkipped := rfl
  have hf : graph.SkippedFindLinks := by decide
  have hf' : other.SkippedFindLinks := by decide
  have hc : graph.ControlsRun .builtin := controlsRun_switchedGraph
  exact ⟨⟨hsame, hf, hf', hc⟩, facts_eq_of_eraseSkipped_eq graph other .builtin {} hsame hf hf' hc⟩

lemma branches_promptSwitch :
    branches "input" promptSwitch = [(1, "input1"), (2, "input2")] := by
  have hnumbered : branches "input" promptSwitch =
      ([(1, "input1"), (2, "input2")] : List (Int × String)).mergeSort fun a b => a.1 ≤ b.1 := rfl
  rw [hnumbered, List.mergeSort_of_pairwise (by decide)]

lemma branch?_promptSwitch (first : Bool) :
    branch? ⟨"select", "input"⟩ promptSwitch (some (.num (.int (if first then 1 else 2)))) =
      some (if first then "input1" else "input2") := by
  rw [branch?, branches_promptSwitch]
  cases first <;> rfl

/-- With one sink the positive prompt is the text that a search from there finds. -/
lemma positivePrompt_of_sink {graph : Graph} {settings : Settings} {sink : Node} {text : String}
    (hsinks : (sinks ⟨NodeLibrary.catalogues⟩ graph).map Node.id = [sink].map Node.id)
    (hfound : (((Search.ofSettings graph .builtin settings).resolve sink.id .prompt).run
      .empty).1 = some (.str text)) :
    (graph.facts .builtin settings).positivePrompt = some text := by
  have hfacts : (graph.facts .builtin settings).positivePrompt =
      (((Search.ofSettings graph .builtin settings).first .prompt textValue?
        (sinks .builtin graph)).run .empty).1 := rfl
  rw [← NodeLibrary.builtin_eq_catalogues] at hsinks
  rw [hfacts, Search.first_congr textValue? (fun _ => rfl) hsinks, Search.run_first_cons, hfound]
  rfl

/-- The graph with the number of the branch in a node that does not run. -/
def selectionGraph (number : Int) : Graph :=
  switchedGraph (encoderOf "1" "first" .active) (selectionOf number .muted)

def selectionSearch (number : Int) : Search := .ofSettings (selectionGraph number) .builtin {}

section Selection

variable {number : Int} {name id text : String}

/-- Whatever the images are searched for, it is looked for behind the switch. -/
lemma planFor_saveOfSwitch {search : Search} (hlib : search.library = .builtin) (param : Param)
    (slot : Option UInt32) (depth : Nat) : planFor search param saveOfSwitch slot depth =
      .single (.follow ⟨"3", 0⟩ (depth + 1)) := by
  have hget : search.library.get? saveOfSwitch.classType =
      some (Catalogue.imageSink "SaveImage" .output ["filename_prefix"]) :=
    hlib ▸ NodeLibrary.get?_builtin_saveImage
  have hrule : (Catalogue.imageSink "SaveImage" .output ["filename_prefix"]).rule? param =
      some (.trace "images") := by
    cases param <;> rfl
  rw [planFor_ruled rfl hget hrule]
  rfl

lemma planFor_encoderOf : planFor (selectionSearch number) .prompt (encoderOf id text .active)
    (some 0) 2 = .single (.answer (some (.str text))) := by
  have hplan : planFor (selectionSearch number) .prompt (encoderOf id text .active) (some 0) 2 =
      rulePlan .builtin (Catalogue.textEncoder "CLIPTextEncode" ["text"] "text")
        (encoderOf id text .active) (some 0) 2 (.widget "text" false) :=
    planFor_ruled rfl NodeLibrary.get?_builtin_textEncoder rfl
  rw [hplan]
  rfl

/-- The switch leads wherever the branch leads that its control selects. -/
lemma planFor_promptSwitch {search : Search} (hlib : search.library = .builtin) {depth : Nat}
    (hbranch : branch? ⟨"select", "input"⟩ promptSwitch
      (control? search promptSwitch "select" depth) = some name)
    (hlink : promptSwitch.input? name = some (.link ⟨id, 0⟩)) (param : Param)
    (slot : Option UInt32) : planFor search param promptSwitch slot depth =
      .single (.follow ⟨id, 0⟩ (depth + 1)) := by
  let definition := Catalogue.switchOf "ImpactSwitch" ["select", "sel_mode"] "select" "input"
  have hget : search.library.get? promptSwitch.classType = some definition :=
    hlib ▸ NodeLibrary.get?_builtin_impactSwitch
  have hswitch : unruledPlan search definition promptSwitch slot depth =
      .single (.throughSwitch search ⟨"select", "input"⟩ promptSwitch depth) := rfl
  rw [planFor_unruled rfl hget rfl, hswitch, Step.throughSwitch, hbranch]
  simp only [Step.toInput, hlink]

variable
  (hbranch : branch? ⟨"select", "input"⟩ promptSwitch (some (.num (.int number))) = some name)
  (hlink : promptSwitch.input? name = some (.link ⟨id, 0⟩))
include hbranch hlink

/-- The search goes through the switch to the encoder behind the branch. -/
lemma resolve_selectionGraph (hid : id ≠ "3" ∧ id ≠ "9")
    (hnode : (selectionGraph number).node? id = some (encoderOf id text .active)) :
    (((selectionSearch number).resolve "9" .prompt).run .empty).1 = some (.str text) := by
  have hlib : (selectionSearch number).library = .builtin := rfl
  have hcontrol : control? (selectionSearch number) promptSwitch "select" 1 =
      some (.num (.int number)) := rfl
  have hdepth : 2 ≤ (selectionSearch number).maxDepth := by
    change 2 ≤ 64
    decide
  exact Search.value_resolve_of_two_links _ _ hdepth (by decide) hid rfl
    (planFor_saveOfSwitch hlib .prompt none 0) rfl
    (planFor_promptSwitch hlib (hcontrol ▸ hbranch) hlink .prompt (some 0)) hnode planFor_encoderOf

lemma positivePrompt_selectionGraph
    (hsinks : (sinks ⟨NodeLibrary.catalogues⟩ (selectionGraph number)).map Node.id =
      [saveOfSwitch].map Node.id)
    (hid : id ≠ "3" ∧ id ≠ "9")
    (hnode : (selectionGraph number).node? id = some (encoderOf id text .active)) :
    ((selectionGraph number).facts .builtin {}).positivePrompt = some text :=
  positivePrompt_of_sink hsinks (resolve_selectionGraph hbranch hlink hid hnode)

end Selection

/-- The number in a node that does not run selects a branch all the same. -/
theorem facts_selectionGraph_ne :
    (selectionGraph 2).eraseSkipped = (selectionGraph 1).eraseSkipped ∧
      (selectionGraph 2).SkippedFindLinks ∧ (selectionGraph 1).SkippedFindLinks ∧
      (selectionGraph 2).facts .builtin {} ≠ (selectionGraph 1).facts .builtin {} := by
  have hsecond : ((selectionGraph 2).facts .builtin {}).positivePrompt = some "second" :=
    positivePrompt_selectionGraph (branch?_promptSwitch false) rfl (by decide +kernel) (by decide)
      rfl
  have hfirst : ((selectionGraph 1).facts .builtin {}).positivePrompt = some "first" :=
    positivePrompt_selectionGraph (branch?_promptSwitch true) rfl (by decide +kernel) (by decide)
      rfl
  refine ⟨rfl, by decide, by decide, fun h => ?_⟩
  rw [h, hfirst] at hsecond
  exact absurd hsecond (by decide)

/-- Workflows that are saved in either form and are the same but for values of nodes that do not run
are interpreted alike, unless a switch reads its control from such a node. That every link is found
under its name need not be asked for there. -/
theorem interpret_eq_of_eraseSkipped_eq (value other : Json) (settings : Settings)
    {graph graph' : Graph} (hgraph : Graph.ofJson value = .ok graph)
    (hgraph' : Graph.ofJson other = .ok graph') (hinputs : HasDistinctInputs value)
    (hinputs' : HasDistinctInputs other) (hsame : graph.eraseSkipped = graph'.eraseSkipped)
    (hc : graph.ControlsRun .builtin) : interpret value settings = interpret other settings := by
  have hf := Graph.skippedFindLinks_ofJson hinputs hgraph
  have hf' := Graph.skippedFindLinks_ofJson hinputs' hgraph'
  have hc' := Graph.controlsRun_of_eraseSkipped_eq hsame hc
  have hfacts : graph.facts .builtin settings = graph'.facts .builtin settings := by
    rw [← facts_eraseSkipped hf hc, hsame, facts_eraseSkipped hf' hc']
  rw [interpret, interpret, hgraph, hgraph']
  exact congrArg Except.ok hfacts

end Tracing

end ImageRecipe
