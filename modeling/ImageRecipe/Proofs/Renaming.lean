import ImageRecipe.Proofs.GraphStore
import ImageRecipe.Proofs.Rewiring
import Mathlib.SetTheory.Cardinal.Arithmetic

/-!
# New names for nodes

Nodes are told apart by their ids and by nothing else. If the nodes of a
workflow get other ids, distinct ones for distinct nodes, and the links follow,
then a search goes the same way under the new names: it finds the same value,
visits the nodes of the new names and gathers the same values there. So the
facts do not depend on what the nodes are called.
-/
namespace ImageRecipe

namespace Workflow

/-- The link to the same slot of the node under its new name. -/
def Link.renamed (f : String → String) (link : Link) : Link := ⟨f link.source, link.slot⟩

/-- The node with a new name and with links to the new names. -/
def Node.renamed (f : String → String) (node : Node) : Node :=
  { node.redirect (Link.renamed f) with id := f node.id }

namespace Graph

/-- The ids in a graph: those of its nodes and those that links lead to, whether there is a node or
not. -/
def ids (graph : Graph) : List String :=
  graph.nodes.flatMap fun node => node.id :: node.targets.map (·.source)

/-- The graph with new names for its nodes. -/
def renamed (f : String → String) (graph : Graph) : Graph :=
  (⟨graph.nodes.map (Node.renamed f), []⟩ : Graph).connected

/-- Only the names of ids in the graph matter. -/
lemma renamed_congr {f g : String → String} {graph : Graph} (h : ∀ id ∈ graph.ids, f id = g id) :
    graph.renamed f = graph.renamed g := by
  have hnode : ∀ node ∈ graph.nodes, node.renamed f = node.renamed g := by
    intro node hn
    have hid : f node.id = g node.id :=
      h node.id (List.mem_flatMap.mpr ⟨node, hn, List.mem_cons_self⟩)
    have hlink : ∀ target ∈ node.targets, target.renamed f = target.renamed g := by
      intro target ht
      have hsource : target.source ∈ graph.ids :=
        List.mem_flatMap.mpr ⟨node, hn, List.mem_cons_of_mem _ (List.mem_map_of_mem ht)⟩
      rw [Link.renamed, h _ hsource]
      rfl
    have hinputs : (node.inputs.map fun input => (input.1, input.2.redirect (Link.renamed f))) =
        node.inputs.map fun input => (input.1, input.2.redirect (Link.renamed g)) := by
      refine List.map_congr_left fun input hi => ?_
      obtain ⟨name, input⟩ := input
      cases input with
      | literal value => rfl
      | link target =>
        have hmem : target ∈ node.targets :=
          List.mem_map.mpr ⟨⟨name, target⟩, List.mem_filterMap.mpr ⟨_, hi, rfl⟩, rfl⟩
        simp only [Input.redirect, hlink target hmem]
    simp only [Node.renamed, Node.redirect, hid, hinputs]
  rw [renamed, renamed, List.map_congr_left hnode]

section Injective

variable {f : String → String} (hf : Function.Injective f) (graph : Graph)
include hf

lemma node?_renamed (id : String) :
    (graph.renamed f).node? (f id) = (graph.node? id).map (Node.renamed f) := by
  have hsame : ((fun node : Node => node.id == f id) ∘ Node.renamed f) =
      fun node => node.id == id :=
    funext fun node => Bool.eq_iff_iff.mpr (by simp [Node.renamed, hf.eq_iff])
  change (graph.nodes.map (Node.renamed f)).find? _ = _
  rw [List.find?_map, hsame]
  rfl

lemma hasNode_renamed (id : String) : (graph.renamed f).hasNode (f id) = graph.hasNode id := by
  rw [hasNode, hasNode, graph.node?_renamed hf, Option.isSome_map]

/-- The edges are those of the graph under the new names. -/
lemma edges_renamed (hc : graph.IsConnected) : (graph.renamed f).edges =
    graph.edges.map fun edge => ⟨f edge.source, edge.slot, f edge.target, edge.input⟩ := by
  have hinto : ∀ node : Node, (graph.renamed f).edgesInto (node.renamed f) =
      (graph.edgesInto node).map fun edge =>
        ⟨f edge.source, edge.slot, f edge.target, edge.input⟩ := by
    intro node
    have hlinks : (node.renamed f).links =
        node.links.map fun link => ⟨link.input, link.target.renamed f⟩ :=
      node.links_redirect (Link.renamed f)
    have hsource : ∀ link : NamedLink, (graph.renamed f).hasNode (link.target.renamed f).source =
        graph.hasNode link.target.source := fun link => graph.hasNode_renamed hf link.target.source
    simp only [edgesInto, hlinks, List.filter_map, List.map_map, Function.comp_def, hsource]
    rfl
  have hedges : (graph.renamed f).edges =
      (graph.nodes.map (Node.renamed f)).flatMap (graph.renamed f).edgesInto := rfl
  rw [hedges, hc, List.flatMap_map, List.map_flatMap]
  exact congrArg graph.nodes.flatMap (funext hinto)

lemma isLeaf_renamed (hc : graph.IsConnected) (id : String) :
    (graph.renamed f).isLeaf (f id) = graph.isLeaf id := by
  have hsource : ∀ edge : Edge, (f edge.source == f id) = (edge.source == id) :=
    fun edge => Bool.eq_iff_iff.mpr (by simp [hf.eq_iff])
  rw [isLeaf, isLeaf, graph.hasNode_renamed hf, graph.edges_renamed hf hc, List.any_map]
  simp only [Function.comp_def, hsource]

end Injective

end Graph

end Workflow

namespace Tracing

open Workflow

/-- The trail with the new names of its nodes. -/
def Trail.renamed (f : String → String) (trail : Trail) : Trail :=
  ⟨trail.visited.map f, trail.gathered.map fun entry => (f entry.1, entry.2)⟩

/-- Under the new names `other` does what `walk` does; `form` says what the result becomes. -/
def Walk.RenamesTo {α β : Type} (f : String → String) (form : α → β) (walk : Walk α)
    (other : Walk β) : Prop :=
  ∀ trail : Trail, other.run (trail.renamed f) =
    (form (walk.run trail).1, (walk.run trail).2.renamed f)

namespace Walk

variable {f : String → String}

lemma renamesTo_pure {α β : Type} {form : α → β} (a : α) :
    (pure a : Walk α).RenamesTo f form (pure (form a)) := fun _ => rfl

lemma renamesTo_bind {α β γ δ : Type} {form : α → β} {form' : γ → δ} {walk : Walk α}
    {other : Walk β} {next : α → Walk γ} {next' : β → Walk δ} (hw : walk.RenamesTo f form other)
    (hn : ∀ a, (next a).RenamesTo f form' (next' (form a))) :
    (walk >>= next).RenamesTo f form' (other >>= next') := by
  intro trail
  have hother : (other >>= next').run (trail.renamed f) =
      (next' (other.run (trail.renamed f)).1).run (other.run (trail.renamed f)).2 := rfl
  have hwalk : (walk >>= next).run trail =
      (next (walk.run trail).1).run (walk.run trail).2 := rfl
  rw [hother, hwalk, hw]
  exact hn _ _

lemma renamesTo_gather (start : String) (value : Json) :
    (modify (·.gather start value) : Walk Unit).RenamesTo f id
      (modify (·.gather (f start) value)) := by
  intro trail
  have hgather :
      (trail.renamed f).gather (f start) value = (trail.gather start value).renamed f := by
    simp only [Trail.renamed, Trail.gather, List.map_append, List.map_cons, List.map_nil]
  exact congrArg (Prod.mk ()) hgather

section CarryOut

variable {visit visit' : Link → Nat → Walk (Option Json)}
  (hvisit : ∀ target depth, (visit target depth).RenamesTo f id (visit' (target.renamed f) depth))
include hvisit

lemma renamesTo_step (s : Step) :
    (step visit s).RenamesTo f id (step visit' (s.redirect (Link.renamed f))) := by
  cases s with
  | answer value => exact renamesTo_pure value
  | follow target depth => exact hvisit target depth

lemma renamesTo_note (start : String) (entry : Step) : (note visit start entry).RenamesTo f id
    (note visit' (f start) (entry.redirect (Link.renamed f))) := by
  refine renamesTo_bind (renamesTo_step hvisit entry) fun value => ?_
  cases value with
  | none => exact renamesTo_pure ()
  | some value => exact renamesTo_gather start value

lemma renamesTo_forM_note (start : String) (entries : List Step) :
    (entries.forM (note visit start)).RenamesTo f id
      ((entries.map (·.redirect (Link.renamed f))).forM (note visit' (f start))) := by
  induction entries with
  | nil => exact renamesTo_pure ()
  | cons entry entries ih => exact renamesTo_bind (renamesTo_note hvisit start entry) fun _ => ih

lemma renamesTo_mapM_step (parts : List Step) : (parts.mapM (step visit)).RenamesTo f id
    ((parts.map (·.redirect (Link.renamed f))).mapM (step visit')) := by
  induction parts with
  | nil => exact renamesTo_pure []
  | cons part parts ih =>
    rw [List.map_cons, List.mapM_cons, List.mapM_cons]
    exact renamesTo_bind (renamesTo_step hvisit part) fun value =>
      renamesTo_bind ih fun values => renamesTo_pure (value :: values)

/-- If the visits behind links do the same under the new names, so does carrying out a plan. -/
theorem renamesTo_carryOut (start : String) (plan : Plan) :
    (carryOut visit start plan).RenamesTo f id
      (carryOut visit' (f start) (plan.redirect (Link.renamed f))) := by
  cases plan with
  | single s => exact renamesTo_step hvisit s
  | gather entries onward =>
    exact renamesTo_bind (renamesTo_forM_note hvisit start entries) fun _ =>
      renamesTo_step hvisit onward
  | join separator parts =>
    exact renamesTo_bind (renamesTo_mapM_step hvisit parts) fun values =>
      renamesTo_pure (joined? separator values)
  | scale factor base =>
    exact renamesTo_bind (renamesTo_step hvisit base) fun value =>
      renamesTo_pure (scaled? factor value)

end CarryOut

end Walk

/-- A plan does not say whose it is. -/
lemma planFor_renamed (search : Search) (param : Param) (f : String → String) (node : Node)
    (slot : Option UInt32) (depth : Nat) :
    planFor search param (node.renamed f) slot depth =
      planFor search param (node.redirect (Link.renamed f)) slot depth := rfl

section Searches

variable {f : String → String} (hf : Function.Injective f) {graph : Graph}
  {library : NodeLibrary} {settings : Settings}
include hf

/-- Induction on the nodes that may still be asked. -/
lemma plainValueBehind?_renamed (steps : Nat) (source : String) :
    plainValueBehind? (graph.renamed f) steps (f source) =
      plainValueBehind? graph steps source := by
  induction steps generalizing source with
  | zero => rfl
  | succ steps ih =>
    rw [plainValueBehind?, plainValueBehind?, graph.node?_renamed hf]
    cases hn : graph.node? source with
    | none => rfl
    | some node =>
      have hvalue : plainValue? (node.renamed f) = plainValue? node := by
        have hliteral : (node.renamed f).literal? = node.literal? :=
          funext (node.literal?_redirect (Link.renamed f))
        simp only [plainValue?, hliteral]
        rfl
      have hfirst : (node.renamed f).firstLink? =
          node.firstLink?.map fun link => ⟨link.input, link.target.renamed f⟩ :=
        node.firstLink?_redirect (Link.renamed f)
      simp only [Option.map_some, hvalue, hfirst]
      cases plainValue? node with
      | some value => rfl
      | none =>
        cases node.firstLink? with
        | none => rfl
        | some link => exact ih link.target.source

lemma control?_renamed (node : Node) (name : String) (depth : Nat) :
    control? (.ofSettings (graph.renamed f) library settings)
        (node.redirect (Link.renamed f)) name depth =
      control? (.ofSettings graph library settings) node name depth := by
  rw [control?, control?, node.link?_redirect, ownValue?_redirect]
  cases node.link? name with
  | none => rfl
  | some target => exact plainValueBehind?_renamed hf _ target.source

/-- Induction on the room that is left. A node was visited under its new name exactly if it was
visited, since no two nodes have the same new name. -/
theorem renamesTo_visit (param : Param) (room : Nat) (start : String) (slot : Option UInt32)
    (depth : Nat) :
    ((Search.ofSettings graph library settings).visit param room start slot depth).RenamesTo f id
      ((Search.ofSettings (graph.renamed f) library settings).visit param room (f start) slot
        depth) := by
  induction room generalizing start slot depth with
  | zero => exact fun _ => rfl
  | succ room ih =>
    intro trail
    have hrefuse : (Search.ofSettings (graph.renamed f) library settings).Refuses (f start) depth
        (trail.renamed f) ↔ (Search.ofSettings graph library settings).Refuses start depth trail :=
      or_congr Iff.rfl (List.mem_map_of_injective hf)
    by_cases hr : (Search.ofSettings graph library settings).Refuses start depth trail
    · rw [Search.run_visit_refused _ param hr, Search.run_visit_refused _ param (hrefuse.mpr hr)]
      rfl
    rw [Search.run_visit_entered _ param hr,
      Search.run_visit_entered _ param (hrefuse.not.mpr hr)]
    have hnode : (Search.ofSettings (graph.renamed f) library settings).graph.node? (f start) =
        (graph.node? start).map (Node.renamed f) := graph.node?_renamed hf start
    have hnode' : (Search.ofSettings graph library settings).graph.node? start =
        graph.node? start := rfl
    rw [hnode, hnode']
    cases graph.node? start with
    | none => rfl
    | some node =>
      have hplan : planFor (.ofSettings (graph.renamed f) library settings) param (node.renamed f)
          slot depth = (planFor (.ofSettings graph library settings) param node slot
            depth).redirect (Link.renamed f) := by
        rw [planFor_renamed]
        exact planFor_redirect_of_control (s := .ofSettings graph library settings)
          (t := .ofSettings (graph.renamed f) library settings) rfl rfl
          (fun _ _ switch _ => control?_renamed hf node switch.control depth) slot
      simp only [Option.map_some, hplan]
      exact Walk.renamesTo_carryOut
        (fun target depth => ih target.source target.slot depth) start _ (trail.enter start)

lemma renamesTo_resolve (start : String) (param : Param) :
    ((Search.ofSettings graph library settings).resolve start param).RenamesTo f id
      ((Search.ofSettings (graph.renamed f) library settings).resolve (f start) param) :=
  fun trail => renamesTo_visit hf param _ start none 0 { trail with visited := [] }

lemma renamesTo_first {α : Type} (param : Param) (read : Json → Option α) (sinks : List Node) :
    ((Search.ofSettings graph library settings).first param read sinks).RenamesTo f id
      ((Search.ofSettings (graph.renamed f) library settings).first param read
        (sinks.map (Node.renamed f))) := by
  induction sinks with
  | nil => exact Walk.renamesTo_pure none
  | cons sink rest ih =>
    refine Walk.renamesTo_bind (renamesTo_resolve hf sink.id param) fun value => ?_
    cases h : value.bind read with
    | some found =>
      simp only [id_eq, h]
      exact Walk.renamesTo_pure (some found)
    | none =>
      simp only [id_eq, h]
      exact ih

lemma renamesTo_collect (param : Param) (sinks : List Node) :
    ((Search.ofSettings graph library settings).collect param sinks).RenamesTo f
      (List.map fun entry => (f entry.1, entry.2))
      ((Search.ofSettings (graph.renamed f) library settings).collect param
        (sinks.map (Node.renamed f))) := by
  induction sinks with
  | nil => exact Walk.renamesTo_pure []
  | cons sink rest ih =>
    have hwhole : ∀ trail : Trail, (trail.renamed f).gathered.isEmpty = trail.gathered.isEmpty :=
      fun trail => List.isEmpty_map
    intro trail
    let after := ((Search.ofSettings graph library settings).resolve sink.id param).run
      { trail with gathered := [] }
    have hafter : ((Search.ofSettings (graph.renamed f) library settings).resolve (f sink.id)
        param).run { trail.renamed f with gathered := [] } = (after.1, after.2.renamed f) :=
      renamesTo_resolve hf sink.id param { trail with gathered := [] }
    have hid : (sink.renamed f).id = f sink.id := rfl
    simp only [List.map_cons, Search.run_collect_cons, hid, hafter, hwhole]
    by_cases h : after.2.gathered.isEmpty = true
    · simp only [h, after, if_true]
      exact ih _
    · simp only [h, after]
      rfl

/-- A loader is found under its new name, with the same widgets. -/
lemma lora?_renamed (gathered : String × Json) :
    lora? (.ofSettings (graph.renamed f) library settings) (f gathered.1, gathered.2) =
      lora? (.ofSettings graph library settings) gathered := by
  have hloader : ∀ value,
      loraOfLoader? (.ofSettings (graph.renamed f) library settings) (f gathered.1) value =
        loraOfLoader? (.ofSettings graph library settings) gathered.1 value := by
    intro value
    have hnode : (Search.ofSettings (graph.renamed f) library settings).graph.node?
        (f gathered.1) = (graph.node? gathered.1).map (Node.renamed f) :=
      graph.node?_renamed hf gathered.1
    have hnode' : (Search.ofSettings graph library settings).graph.node? gathered.1 =
        graph.node? gathered.1 := rfl
    have hown : ∀ node : Node, ownValue? library (node.renamed f) = ownValue? library node :=
      fun node => ownValue?_redirect (Link.renamed f) node library
    rw [loraOfLoader?, loraOfLoader?, hnode, hnode']
    cases graph.node? gathered.1 with
    | none => rfl
    | some node =>
      simp only [Option.map_some, Option.bind_eq_bind, Option.bind_some, Search.ofSettings, hown]
  unfold lora?
  cases gathered.2 <;> simp only [hloader]

lemma renamesTo_facts (sinks : List Node) :
    ((Search.ofSettings graph library settings).facts sinks).RenamesTo f id
      ((Search.ofSettings (graph.renamed f) library settings).facts
        (sinks.map (Node.renamed f))) := by
  unfold Search.facts
  iterate 12 refine Walk.renamesTo_bind (renamesTo_first hf _ _ sinks) fun _ => ?_
  refine Walk.renamesTo_bind (renamesTo_collect hf .lora sinks) fun gathered => ?_
  have hloras : (gathered.map fun entry => (f entry.1, entry.2)).filterMap
      (lora? (.ofSettings (graph.renamed f) library settings)) =
        gathered.filterMap (lora? (.ofSettings graph library settings)) := by
    rw [List.filterMap_map]
    exact List.filterMap_congr fun entry _ => lora?_renamed hf entry
  rw [hloras]
  exact Walk.renamesTo_pure _

/-- The rank of a node does not hang on names, nor does the order of nodes of one rank. -/
lemma sinks_renamed (hc : graph.IsConnected) :
    sinks library (graph.renamed f) = (sinks library graph).map (Node.renamed f) := by
  have hnodes : (graph.renamed f).nodes = graph.nodes.map (Node.renamed f) := rfl
  have hsink : ∀ node : Node, sinkRank? library (node.renamed f) = sinkRank? library node :=
    fun _ => rfl
  have hfirst : ∀ node : Node, (node.renamed f).firstLink?.isSome = node.firstLink?.isSome := by
    intro node
    have h : (node.renamed f).firstLink? =
        node.firstLink?.map fun link => ⟨link.input, link.target.renamed f⟩ :=
      node.firstLink?_redirect (Link.renamed f)
    rw [h, Option.isSome_map]
  have hleaf : ∀ node : Node, (graph.renamed f).isLeaf (node.renamed f).id =
      graph.isLeaf node.id := fun node => graph.isLeaf_renamed hf hc node.id
  have hsinks : rankedSinks library (graph.renamed f) =
      (rankedSinks library graph).map fun entry => (entry.1, entry.2.renamed f) := by
    simp only [rankedSinks, hnodes, List.filterMap_map, List.map_filterMap, Option.map_map,
      Function.comp_def, hsink]
  have hleaves : rankedLeaves (graph.renamed f) =
      (rankedLeaves graph).map fun entry => (entry.1, entry.2.renamed f) := by
    simp only [rankedLeaves, hnodes, List.filter_map, List.map_map, Function.comp_def, hleaf,
      hfirst]
    rfl
  rw [sinks, sinks, hsinks, hleaves, List.isEmpty_map, ← apply_ite (List.map _), byRank_map]
  rfl

lemma facts_renamed_of_injective (hc : graph.IsConnected) :
    (graph.renamed f).facts library settings = graph.facts library settings := by
  have hfacts : ((Search.ofSettings (graph.renamed f) library settings).facts
      (sinks library (graph.renamed f))).run (Trail.renamed f .empty) = _ :=
    sinks_renamed hf hc ▸ renamesTo_facts hf (sinks library graph) .empty
  exact (congrArg Prod.fst hfacts :)

end Searches

/-- Names that are distinct on the ids of a graph are those that an injective renaming of all ids
gives. -/
lemma exists_injective_of_injOn {f : String → String} {ids : List String}
    (hf : Set.InjOn f {start | start ∈ ids}) :
    ∃ g : String → String, Function.Injective g ∧ ∀ start ∈ ids, f start = g start := by
  have : Finite {start | start ∈ ids} := ids.finite_toSet.to_subtype
  have hfew : Cardinal.mk {start | start ∈ ids} < Cardinal.mk String :=
    (Cardinal.lt_aleph0_of_finite _).trans_le (Cardinal.aleph0_le_mk String)
  obtain ⟨g, hg⟩ := Cardinal.extend_function_of_lt ⟨_, hf.injective⟩ hfew ⟨Equiv.refl String⟩
  exact ⟨g, g.injective, fun start hs => (hg ⟨start, hs⟩).symm⟩

/-- A workflow that was read from either of its saved forms has the same facts when its nodes are
given other names, distinct ones for distinct ids. -/
theorem facts_renamed (value : Json) (graph : Graph)
    (hgraph : Graph.ofApi value = .ok graph ∨ Graph.ofUi value = .ok graph)
    (f : String → String) (hf : Set.InjOn f {start | start ∈ graph.ids}) (library : NodeLibrary)
    (settings : Settings) :
    (graph.renamed f).facts library settings = graph.facts library settings := by
  have hc : graph.IsConnected :=
    hgraph.elim Graph.isConnected_ofApi Graph.isConnected_ofUi
  obtain ⟨g, hg, hfg⟩ := exists_injective_of_injOn hf
  rw [Graph.renamed_congr hfg]
  exact facts_renamed_of_injective hg hc

/-- A sampler whose model is not there, and its sink. -/
def sampledMembers : List (String × Json) :=
  [("1", .obj [("class_type", .str "KSampler"),
    ("inputs", .obj [("steps", .num (.int 20)), ("model", .arr [.str "0", .num (.int 0)])])]),
  ("2", .obj [("class_type", .str "SaveImage"),
    ("inputs", .obj [("images", .arr [.str "1", .num (.int 0)])])])]

def sampledGraph : Graph := .ofNodes (Graph.apiNodes sampledMembers)

theorem facts_renamed_sampledGraph :
    ((Graph.ofApi (.obj sampledMembers) = .ok sampledGraph ∨
        Graph.ofUi (.obj sampledMembers) = .ok sampledGraph) ∧
      Set.InjOn (Equiv.swap "1" "2") {start | start ∈ sampledGraph.ids}) ∧
    (sampledGraph.renamed (Equiv.swap "1" "2")).facts .builtin {} =
      sampledGraph.facts .builtin {} := by
  have hgraph : Graph.ofApi (.obj sampledMembers) = .ok sampledGraph ∨
      Graph.ofUi (.obj sampledMembers) = .ok sampledGraph := Or.inl (Graph.ofApi_obj _)
  have hf : Set.InjOn (Equiv.swap "1" "2") {start | start ∈ sampledGraph.ids} :=
    (Equiv.swap "1" "2").injective.injOn
  exact ⟨⟨hgraph, hf⟩,
    facts_renamed (.obj sampledMembers) sampledGraph hgraph (Equiv.swap "1" "2") hf .builtin {}⟩

end Tracing

end ImageRecipe
