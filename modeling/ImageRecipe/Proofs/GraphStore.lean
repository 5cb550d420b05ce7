import ImageRecipe.Proofs.IndexedStore
import ImageRecipe.Proofs.SearchAgreement
import Mathlib.Data.List.Induction
import Mathlib.Data.List.Nodup

/-!
# What a graph keeps

Of the nodes that are added to a graph one after the other the first one of each
id is kept, in the order in which they came, and it is what its id leads to. In
a graph that was read from a saved workflow every linked input with its source in
the graph has one edge, so the leaves are the nodes that no linked input names.
-/
namespace ImageRecipe.Workflow

/-- The nodes that no earlier one has the id of, in their order. -/
def firstOfEachId : List Node → List Node
  | [] => []
  | node :: rest => node :: (firstOfEachId rest).filter fun other => other.id != node.id

section FirstOfEachId

variable (nodes : List Node) (node : Node) (id : String)

/-- Among the first nodes of each id an id is found as among all nodes. -/
lemma find?_firstOfEachId :
    (firstOfEachId nodes).find? (·.id == id) = nodes.find? (·.id == id) := by
  induction nodes with
  | nil => rfl
  | cons node rest ih =>
    rw [firstOfEachId, List.find?_cons, List.find?_cons]
    cases hid : node.id == id with
    | true => rfl
    | false =>
      -- what was taken out has another id than the one that is looked for
      have hsame : (fun other : Node =>
          decide ((other.id != node.id) = true ∧ (other.id == id) = true)) =
            fun other => other.id == id := by
        funext other
        have hne : node.id ≠ id := by simpa using hid
        by_cases h : other.id = id
        · simp [h, hne.symm]
        · simp [h]
      rw [List.find?_filter, hsame, ih]

lemma firstOfEachId_sublist : (firstOfEachId nodes).Sublist nodes := by
  induction nodes with
  | nil => exact List.Sublist.slnil
  | cons node rest ih => exact (List.filter_sublist.trans ih).cons_cons node

lemma nodup_firstOfEachId : ((firstOfEachId nodes).map Node.id).Nodup := by
  induction nodes with
  | nil => exact List.nodup_nil
  | cons node rest ih =>
    rw [firstOfEachId, List.map_cons, List.nodup_cons]
    refine ⟨?_, ih.sublist (List.filter_sublist.map Node.id)⟩
    intro hmem
    obtain ⟨other, hother, hid⟩ := List.mem_map.mp hmem
    have hne := (List.mem_filter.mp hother).2
    simp [hid] at hne

/-- One more node is kept at the end, unless its id was there before. -/
lemma firstOfEachId_append_singleton :
    firstOfEachId (nodes ++ [node]) =
      if node.id ∈ nodes.map Node.id then firstOfEachId nodes
      else firstOfEachId nodes ++ [node] := by
  induction nodes with
  | nil => rfl
  | cons first rest ih =>
    rw [List.cons_append, firstOfEachId, ih, firstOfEachId]
    by_cases hrest : node.id ∈ rest.map Node.id
    · have hmem : node.id ∈ (first :: rest).map Node.id := List.mem_cons_of_mem _ hrest
      rw [if_pos hrest, if_pos hmem]
    · rw [if_neg hrest, List.filter_append]
      by_cases hfirst : node.id = first.id
      · have hmem : node.id ∈ (first :: rest).map Node.id := hfirst ▸ List.mem_cons_self
        rw [if_pos hmem]
        simp [hfirst]
      · have hmem : node.id ∉ (first :: rest).map Node.id := by
          simpa [hfirst] using hrest
        rw [if_neg hmem]
        simp [hfirst]

variable {nodes} in
/-- Nodes with distinct ids are all kept. -/
lemma firstOfEachId_of_nodup (h : (nodes.map Node.id).Nodup) : firstOfEachId nodes = nodes := by
  induction nodes with
  | nil => rfl
  | cons first rest ih =>
    rw [List.map_cons, List.nodup_cons] at h
    rw [firstOfEachId, ih h.2, List.filter_eq_self.mpr]
    intro other hother
    have hne : other.id ≠ first.id := fun hid => h.1 (hid ▸ List.mem_map_of_mem hother)
    simpa using hne

end FirstOfEachId

namespace Graph

variable {graph : Graph} {added : List Node} {node : Node} {id : String}

lemma hasNode_iff : graph.hasNode id = true ↔ id ∈ graph.nodes.map Node.id := by
  rw [hasNode, node?, List.find?_isSome, List.mem_map]
  simp only [beq_iff_eq]

/-- A graph has kept what is to be kept of the nodes that were added to it: each id leads to the
first node that was added with it, another node with one of these ids leaves the graph as it is, and
a node with a new id comes behind all others. -/
structure Keeps (graph : Graph) (added : List Node) : Prop where
  nodes : graph.nodes = firstOfEachId added
  distinct : (graph.nodes.map Node.id).Nodup
  found : ∀ id node, graph.node? id = some node ↔ node.id = id ∧
    ∃ before after, added = before ++ node :: after ∧ ∀ earlier ∈ before, earlier.id ≠ id
  missing : ∀ id, graph.node? id = none ↔ id ∉ added.map Node.id
  refuses : ∀ node, node.id ∈ added.map Node.id →
    graph.add? node = none ∧ graph.add node = graph
  takes : ∀ node, node.id ∉ added.map Node.id →
    graph.add? node = some { graph with nodes := graph.nodes ++ [node] } ∧
      graph.add node = { graph with nodes := graph.nodes ++ [node] }

lemma add?_of_hasNode (h : graph.hasNode node.id = true) : graph.add? node = none := if_pos h

lemma add?_of_not_hasNode (h : ¬ graph.hasNode node.id = true) :
    graph.add? node = some { graph with nodes := graph.nodes ++ [node] } := if_neg h

/-- The ids of a graph are those of the nodes that were added. -/
lemma hasNode_iff_of_nodes_eq (h : graph.nodes = firstOfEachId added) :
    graph.hasNode id = true ↔ id ∈ added.map Node.id := by
  rw [hasNode, node?, h, find?_firstOfEachId, List.find?_isSome, List.mem_map]
  simp only [beq_iff_eq]

/-- One more node. -/
lemma nodes_add_of_nodes_eq (h : graph.nodes = firstOfEachId added) (node : Node) :
    (graph.add node).nodes = firstOfEachId (added ++ [node]) := by
  rw [firstOfEachId_append_singleton]
  by_cases hid : node.id ∈ added.map Node.id
  · rw [add, add?_of_hasNode ((hasNode_iff_of_nodes_eq h).mpr hid), Option.getD_none, if_pos hid, h]
  · rw [add, add?_of_not_hasNode ((hasNode_iff_of_nodes_eq h).not.mpr hid), Option.getD_some,
      if_neg hid, h]

/-- Induction on the nodes, the last one first. -/
lemma nodes_foldl_add (added : List Node) :
    (added.foldl add empty).nodes = firstOfEachId added := by
  induction added using List.reverseRecOn with
  | nil => rfl
  | append_singleton added node ih =>
    rw [List.foldl_append]
    exact nodes_add_of_nodes_eq ih node

lemma keeps_of_nodes_eq (h : graph.nodes = firstOfEachId added) : graph.Keeps added where
  nodes := h
  distinct := h ▸ nodup_firstOfEachId added
  found := by
    intro id node
    rw [node?, h, find?_firstOfEachId, List.find?_eq_some_iff_append]
    simp
  missing := by
    intro id
    rw [node?, h, find?_firstOfEachId, List.find?_eq_none]
    simp
  refuses := by
    intro node hid
    have hnone := add?_of_hasNode ((hasNode_iff_of_nodes_eq h).mpr hid)
    exact ⟨hnone, by rw [add, hnone, Option.getD_none]⟩
  takes := by
    intro node hid
    have hsome := add?_of_not_hasNode ((hasNode_iff_of_nodes_eq h).not.mpr hid)
    exact ⟨hsome, by rw [add, hsome, Option.getD_some]⟩

lemma keeps_foldl_add (added : List Node) : (added.foldl add empty).Keeps added :=
  keeps_of_nodes_eq (nodes_foldl_add added)

/-- The edges of a graph are those that its links give. -/
def IsConnected (graph : Graph) : Prop := graph.edges = graph.nodes.flatMap graph.edgesInto

lemma isConnected_connected (graph : Graph) : graph.connected.IsConnected := rfl

/-- A graph has an edge for each linked input whose source is in it, and its leaves are the nodes
that no linked input names. -/
structure Wired (graph : Graph) : Prop where
  edge_count : graph.edges.length = (graph.nodes.flatMap Node.targets).countP
    fun target => target.source ∈ graph.nodes.map Node.id
  leaf_iff : ∀ id, graph.isLeaf id = true ↔ id ∈ graph.nodes.map Node.id ∧
    ∀ node ∈ graph.nodes, ∀ target ∈ node.targets, target.source ≠ id

lemma length_edgesInto (node : Node) : (graph.edgesInto node).length =
    node.targets.countP fun target => target.source ∈ graph.nodes.map Node.id := by
  have hhas : ∀ link : NamedLink, graph.hasNode link.target.source =
      decide (link.target.source ∈ graph.nodes.map Node.id) :=
    fun link => Bool.eq_iff_iff.mpr (hasNode_iff.trans decide_eq_true_iff.symm)
  rw [edgesInto, List.length_map, ← List.countP_eq_length_filter, Node.targets, List.countP_map]
  exact List.countP_congr fun link _ => by rw [hhas, Function.comp]

lemma source_mem_edges_iff (hc : graph.IsConnected) :
    (∃ edge ∈ graph.edges, edge.source = id) ↔ id ∈ graph.nodes.map Node.id ∧
      ∃ node ∈ graph.nodes, ∃ target ∈ node.targets, target.source = id := by
  rw [hc]
  constructor
  · rintro ⟨edge, hedge, rfl⟩
    obtain ⟨node, hnode, hinto⟩ := List.mem_flatMap.mp hedge
    obtain ⟨link, hlink, rfl⟩ := List.mem_map.mp hinto
    obtain ⟨hmem, hhas⟩ := List.mem_filter.mp hlink
    exact ⟨hasNode_iff.mp hhas, node, hnode, link.target, List.mem_map_of_mem hmem, rfl⟩
  · rintro ⟨hid, node, hnode, target, htarget, rfl⟩
    obtain ⟨link, hlink, rfl⟩ := List.mem_map.mp htarget
    refine ⟨_, List.mem_flatMap.mpr ⟨node, hnode, List.mem_map_of_mem ?_⟩, rfl⟩
    exact List.mem_filter.mpr ⟨hlink, hasNode_iff.mpr hid⟩

lemma wired_of_isConnected (hc : graph.IsConnected) : graph.Wired where
  edge_count := by
    rw [hc, List.length_flatMap, List.countP_flatMap]
    exact congrArg List.sum (List.map_congr_left fun node _ => length_edgesInto node)
  leaf_iff := by
    intro id
    have hany : graph.edges.any (·.source == id) = true ↔
        ∃ edge ∈ graph.edges, edge.source = id := by simp
    rw [isLeaf, Bool.and_eq_true, Bool.not_eq_true', ← Bool.not_eq_true, hany, hasNode_iff,
      source_mem_edges_iff hc]
    constructor
    · rintro ⟨hid, hnone⟩
      exact ⟨hid, fun node hnode target htarget heq =>
        hnone ⟨hid, node, hnode, target, htarget, heq⟩⟩
    · rintro ⟨hid, hnone⟩
      refine ⟨hid, ?_⟩
      rintro ⟨-, node, hnode, target, htarget, heq⟩
      exact hnone node hnode target htarget heq

lemma keeps_ofNodes (nodes : List Node) : (ofNodes nodes).Keeps nodes :=
  keeps_of_nodes_eq (nodes_foldl_add nodes)

lemma wired_ofNodes (nodes : List Node) : (ofNodes nodes).Wired :=
  wired_of_isConnected (isConnected_connected _)

lemma node?_ofNodes_cons (node : Node) (nodes : List Node) :
    (ofNodes (node :: nodes)).node? node.id = some node := by
  rw [node?, (keeps_ofNodes _).nodes, find?_firstOfEachId, List.find?_cons, beq_self_eq_true]

/-- A first node with another id is not in the way. -/
lemma node?_ofNodes_cons_of_ne (nodes : List Node) (h : node.id ≠ id) :
    (ofNodes (node :: nodes)).node? id = (ofNodes nodes).node? id := by
  have hne : (node.id == id) = false := beq_false_of_ne h
  rw [node?, node?, (keeps_ofNodes _).nodes, (keeps_ofNodes _).nodes, find?_firstOfEachId,
    find?_firstOfEachId, List.find?_cons, hne]

lemma mem_of_mem_ofNodes {nodes : List Node} (h : node ∈ (ofNodes nodes).nodes) : node ∈ nodes :=
  (firstOfEachId_sublist nodes).subset ((keeps_ofNodes nodes).nodes ▸ h)

theorem ofNodes_eq_connected {nodes : List Node} (h : (nodes.map Node.id).Nodup) :
    ofNodes nodes = (⟨nodes, []⟩ : Graph).connected := by
  rw [ofNodes]
  have hnodes : (nodes.foldl add empty).nodes = nodes := by
    rw [nodes_foldl_add, firstOfEachId_of_nodup h]
  -- the edges are made anew, so only the nodes count
  generalize nodes.foldl add empty = graph at hnodes
  subst hnodes
  rfl

lemma exists_ofNodes_of_ofUi {value : Json} (h : ofUi value = .ok graph) :
    ∃ workflow, UiWorkflow.ofJson? value = some workflow ∧ graph = ofNodes (uiNodes workflow) := by
  unfold ofUi at h
  split at h
  · rename_i workflow hworkflow
    cases h
    exact ⟨workflow, hworkflow, Store.graph_ofNodes _⟩
  · cases h

lemma exists_ofNodes_of_ofApi {value : Json} (h : ofApi value = .ok graph) :
    ∃ members, value = .obj members ∧ graph = ofNodes (apiNodes members) := by
  unfold ofApi at h
  split at h
  · rename_i members
    cases h
    exact ⟨members, rfl, Store.graph_ofNodes _⟩
  · cases h

lemma isConnected_ofUi {value : Json} (h : ofUi value = .ok graph) : graph.IsConnected := by
  obtain ⟨workflow, -, rfl⟩ := exists_ofNodes_of_ofUi h
  exact isConnected_connected _

lemma isConnected_ofApi {value : Json} (h : ofApi value = .ok graph) : graph.IsConnected := by
  obtain ⟨members, -, rfl⟩ := exists_ofNodes_of_ofApi h
  exact isConnected_connected _

/-- The graph that nodes are added to one after the other, and the graph that is read from either
saved form of a workflow, keep the first node of each id and nothing else; and the graph of a saved
workflow has its edges and leaves from the linked inputs of the nodes that it kept. -/
theorem store_consistent (added : List Node) (value : Json) (graph : Graph) :
    (added.foldl add empty).Keeps added ∧
    (ofApi value = .ok graph →
      ∃ members, value = .obj members ∧ graph.Keeps (apiNodes members) ∧ graph.Wired) ∧
    (ofUi value = .ok graph →
      ∃ workflow, UiWorkflow.ofJson? value = some workflow ∧ graph.Keeps (uiNodes workflow) ∧
        graph.Wired) := by
  refine ⟨keeps_foldl_add added, fun hgraph => ?_, fun hgraph => ?_⟩
  · obtain ⟨members, hvalue, rfl⟩ := exists_ofNodes_of_ofApi hgraph
    exact ⟨members, hvalue, keeps_ofNodes _, wired_ofNodes _⟩
  · obtain ⟨workflow, hworkflow, rfl⟩ := exists_ofNodes_of_ofUi hgraph
    exact ⟨workflow, hworkflow, keeps_ofNodes _, wired_ofNodes _⟩

def doubledInput (name : String) (link : Int) : Json :=
  .obj [("name", .str name), ("link", .num (.int link))]

def doubledRow (link : Int) (source target : String) : Json :=
  .arr [.num (.int link), .str source, .num (.int 0), .str target, .num (.int 0)]

/-- An id that is used twice, a node that feeds itself and a source that is not there. -/
def doubledValue : Json :=
  .obj [
    ("nodes", .arr [
      .obj [("id", .str "1"), ("type", .str "KSampler"),
        ("inputs", .arr [doubledInput "model" 5, doubledInput "latent_image" 6])],
      .obj [("id", .str "1"), ("type", .str "SaveImage")],
      .obj [("id", .str "2"), ("type", .str "SaveImage"),
        ("inputs", .arr [doubledInput "images" 7])]]),
    ("links", .arr [doubledRow 5 "0" "1", doubledRow 6 "1" "1", doubledRow 7 "1" "2"])]

def doubledNodes : List Node := [
  ⟨"1", "KSampler", none, [("model", .link ⟨"0", 0⟩), ("latent_image", .link ⟨"1", 0⟩)], [],
    .active⟩,
  ⟨"1", "SaveImage", none, [], [], .active⟩,
  ⟨"2", "SaveImage", none, [("images", .link ⟨"1", 0⟩)], [], .active⟩]

theorem store_consistent_doubledNodes :
    ofUi doubledValue = .ok (ofNodes doubledNodes) ∧
      (doubledNodes.foldl add empty).Keeps doubledNodes ∧
      ∃ workflow, UiWorkflow.ofJson? doubledValue = some workflow ∧
        (ofNodes doubledNodes).Keeps (uiNodes workflow) ∧ (ofNodes doubledNodes).Wired := by
  have hread : UiWorkflow.ofJson? doubledValue = some _ := rfl
  have hgraph : ofUi doubledValue = .ok (ofNodes doubledNodes) := ofUi_of_ofJson? hread
  have hstore := store_consistent doubledNodes doubledValue (ofNodes doubledNodes)
  exact ⟨hgraph, hstore.1, hstore.2.2 hgraph⟩

end Graph

end ImageRecipe.Workflow
