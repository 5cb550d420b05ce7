import ImageRecipe.Workflow.Forms
import Mathlib.Data.List.Basic

/-!
# The graph of a store

What a store does by places and by its index, its graph does by ids and by
searching the list of nodes: nodes are found, added and refused alike, and the
edges and leaves are the same. So either may stand for the other.
-/
namespace ImageRecipe.Workflow

namespace Store

variable {store : Store} {node : Node} {id : String} {place : Nat}

lemma index_eq_some_iff :
    store.index[id]? = some place ↔ ∃ node, store.nodes[place]? = some node ∧ node.id = id := by
  rw [store.indexed, Option.map_eq_some_iff]

lemma exists_index_of_mem (h : node ∈ store.graph.nodes) :
    ∃ place, store.index[node.id]? = some place := by
  obtain ⟨place, hplace, rfl⟩ := Array.mem_iff_getElem.mp (Array.mem_toList_iff.mp h)
  exact ⟨place, index_eq_some_iff.mpr ⟨_, Array.getElem?_eq_getElem hplace, rfl⟩⟩

/-- What the index leads to is what is found first among the nodes. -/
theorem node?_graph (store : Store) (id : String) : store.graph.node? id = store.node? id := by
  rw [Graph.node?, node?]
  cases hindex : store.index[id]? with
  | none =>
    refine List.find?_eq_none.mpr fun node hmem hid => ?_
    obtain ⟨place, hplace⟩ := exists_index_of_mem hmem
    rw [eq_of_beq hid, hindex] at hplace
    cases hplace
  | some place =>
    obtain ⟨node, hnode, hid⟩ := index_eq_some_iff.mp hindex
    obtain ⟨hlt, hat⟩ := Array.getElem?_eq_some_iff.mp hnode
    rw [Option.bind_some, hnode]
    refine List.find?_eq_some_iff_getElem.mpr ⟨beq_iff_eq.mpr hid, place, hlt, hat, ?_⟩
    intro earlier hearlier
    -- an earlier node with the id would have its place in the index
    rw [Bool.not_eq_true', beq_eq_false_iff_ne]
    intro hother
    have hfirst : store.index[id]? = some earlier :=
      index_eq_some_iff.mpr ⟨_, Array.getElem?_eq_getElem (Nat.lt_trans hearlier hlt), hother⟩
    cases hindex.symm.trans hfirst
    exact Nat.lt_irrefl _ hearlier

lemma hasNode_graph (store : Store) (id : String) :
    store.graph.hasNode id = store.index.contains id := by
  rw [Graph.hasNode, node?_graph, node?, Std.TreeMap.contains_eq_isSome_getElem?]
  cases hindex : store.index[id]? with
  | none => rfl
  | some place =>
    obtain ⟨node, hnode, -⟩ := index_eq_some_iff.mp hindex
    rw [Option.bind_some, hnode]
    rfl

/-- The ends of an edge have their ids. -/
lemma exists_edge? {edge : PlacedEdge} (h : edge ∈ store.edges) :
    ∃ e, store.edge? edge = some e ∧ store.index[e.source]? = some edge.source := by
  obtain ⟨hsource, htarget⟩ := store.placed edge h
  have hmaker := Array.getElem?_eq_getElem hsource
  have huser := Array.getElem?_eq_getElem htarget
  refine ⟨⟨store.nodes[edge.source].id, edge.slot, store.nodes[edge.target].id, edge.input⟩, ?_,
    index_eq_some_iff.mpr ⟨_, hmaker, rfl⟩⟩
  rw [edge?, hmaker, huser]
  rfl

theorem graph_add? (store : Store) (node : Node) :
    (store.add? node).map graph = store.graph.add? node := by
  rw [add?, Graph.add?, hasNode_graph]
  by_cases hfree : store.index.contains node.id = true
  · rw [dif_pos hfree, if_pos hfree, Option.map_none]
  · rw [dif_neg hfree, if_neg hfree, Option.map_some]
    refine congrArg some (congrArg₂ Graph.mk (Array.toList_push ..) ?_)
    refine List.filterMap_congr fun edge he => ?_
    obtain ⟨hsource, htarget⟩ := store.placed edge (Array.mem_toList_iff.mp he)
    rw [edge?, edge?, Array.getElem?_push_lt hsource, Array.getElem?_push_lt htarget,
      Array.getElem?_eq_getElem hsource, Array.getElem?_eq_getElem htarget]

theorem graph_add (store : Store) (node : Node) :
    (store.add node).graph = store.graph.add node := by
  rw [add, Graph.add, ← graph_add?]
  cases store.add? node <;> rfl

lemma graph_foldl_add (store : Store) (nodes : List Node) :
    (nodes.foldl add store).graph = nodes.foldl Graph.add store.graph :=
  (List.foldl_hom graph fun store node => (graph_add store node).symm).symm

/-- The edges into a node lead from what the index gives for the sources of its links. -/
lemma filterMap_edgesInto (hnode : store.nodes[place]? = some node) :
    (store.edgesInto node place).filterMap store.edge? = store.graph.edgesInto node := by
  rw [edgesInto, Graph.edgesInto, List.filterMap_filterMap, ← List.filterMap_eq_map,
    List.filterMap_filter]
  refine List.filterMap_congr fun link _ => ?_
  rw [hasNode_graph, Std.TreeMap.contains_eq_isSome_getElem?]
  cases hindex : store.index[link.target.source]? with
  | none => rfl
  | some source =>
    obtain ⟨maker, hmaker, hid⟩ := index_eq_some_iff.mp hindex
    simp [edge?, hmaker, hnode, hid]

theorem graph_connected (store : Store) : store.connected.graph = store.graph.connected := by
  refine congrArg (Graph.mk _) ?_
  have hedge : store.connected.edge? = store.edge? := rfl
  rw [hedge]
  change List.filterMap _ (List.flatMap _ _) = List.flatMap store.graph.edgesInto store.nodes.toList
  have hinto : ∀ entry ∈ store.nodes.toList.zipIdx,
      (store.edgesInto entry.1 entry.2).filterMap store.edge? = store.graph.edgesInto entry.1 := by
    rintro ⟨node, place⟩ hentry
    refine filterMap_edgesInto ?_
    rw [← Array.getElem?_toList]
    exact List.mem_zipIdx_iff_getElem?.mp hentry
  rw [List.filterMap_flatMap, List.flatMap_congr hinto, ← List.flatMap_map, List.zipIdx_map_fst]

theorem graph_ofNodes (nodes : List Node) : (ofNodes nodes).graph = Graph.ofNodes nodes := by
  rw [ofNodes, Graph.ofNodes, graph_connected, graph_foldl_add]
  rfl

/-- The ids at the sources of edges are compared as their places are. -/
lemma beq_source (hindex : store.index[id]? = some place) {edge : PlacedEdge}
    (hedge : edge ∈ store.edges) {e : Edge} (he : store.edge? edge = some e) :
    (e.source == id) = (edge.source == place) := by
  obtain ⟨e', he', hsource⟩ := exists_edge? hedge
  cases he.symm.trans he'
  rw [Bool.eq_iff_iff, beq_iff_eq, beq_iff_eq]
  constructor
  · rintro rfl
    exact Option.some.inj (hsource.symm.trans hindex)
  · rintro rfl
    obtain ⟨node, hnode, rfl⟩ := index_eq_some_iff.mp hindex
    obtain ⟨maker, hmaker, hid⟩ := index_eq_some_iff.mp hsource
    cases hnode.symm.trans hmaker
    exact hid.symm

theorem isLeaf_graph (store : Store) (id : String) : store.graph.isLeaf id = store.isLeaf id := by
  rw [Graph.isLeaf, isLeaf, hasNode_graph, Std.TreeMap.contains_eq_isSome_getElem?]
  cases hindex : store.index[id]? with
  | none => rfl
  | some place =>
    have hused : store.graph.edges.any (·.source == id) = store.edges.any (·.source == place) := by
      rw [← Array.any_toList, graph, Bool.eq_iff_iff, List.any_eq_true, List.any_eq_true]
      constructor
      · rintro ⟨e, he, hid⟩
        obtain ⟨edge, hedge, hsome⟩ := List.mem_filterMap.mp he
        exact ⟨edge, hedge, beq_source hindex (Array.mem_toList_iff.mp hedge) hsome ▸ hid⟩
      · rintro ⟨edge, hedge, hplace⟩
        have hmem := Array.mem_toList_iff.mp hedge
        obtain ⟨e, he, -⟩ := exists_edge? hmem
        exact ⟨e, List.mem_filterMap.mpr ⟨edge, hedge, he⟩, beq_source hindex hmem he ▸ hplace⟩
    rw [hused]
    rfl

/-- No edge is lost between its places and its ids. -/
theorem length_edges_graph (store : Store) : store.graph.edges.length = store.edges.size := by
  have hsome : ∀ edge ∈ store.edges.toList, (store.edge? edge).isSome = true :=
    fun edge he => by
      obtain ⟨e, he, -⟩ := exists_edge? (Array.mem_toList_iff.mp he)
      rw [he]
      rfl
  rw [graph, List.length_filterMap_eq_countP, List.countP_eq_length.mpr hsome, Array.length_toList]

end Store

namespace Graph

lemma ofApi_obj (members : List (String × Json)) :
    ofApi (.obj members) = .ok (ofNodes (apiNodes members)) :=
  congrArg Except.ok (Store.graph_ofNodes _)

lemma ofUi_of_ofJson? {value : Json} {workflow : UiWorkflow}
    (h : UiWorkflow.ofJson? value = some workflow) :
    ofUi value = .ok (ofNodes (uiNodes workflow)) := by
  rw [ofUi, h]
  exact congrArg Except.ok (Store.graph_ofNodes _)

end Graph

end ImageRecipe.Workflow
