import ImageRecipe.Proofs.GraphStore
import Mathlib.Data.List.Basic

/-!
# Malformed entries of a saved workflow

What cannot be read as a node or as a row of the link table may stand anywhere
between the entries that can: the graph has the same nodes in the same order and
the same edges as without it. An entry of the API form that is replaced by
another object changes the node under its own id, and the edges into that node,
and nothing else.
-/
namespace ImageRecipe.Workflow

/-- `longer` is `shorter` with any number of elements put in, each at any place and each of the
kind that `extra` describes. -/
inductive Padded {α : Type} (extra : α → Prop) : List α → List α → Prop
  | nil : Padded extra [] []
  | keep (x : α) {shorter longer : List α} (h : Padded extra shorter longer) :
      Padded extra (x :: shorter) (x :: longer)
  | put {x : α} (hx : extra x) {shorter longer : List α} (h : Padded extra shorter longer) :
      Padded extra shorter (x :: longer)

section Padded

variable {α β : Type} {extra : α → Prop} {shorter longer : List α}

/-- What a reader drops makes no difference to what it reads. -/
lemma Padded.filterMap_eq (h : Padded extra shorter longer) {read : α → Option β}
    (hread : ∀ x, extra x → read x = none) : longer.filterMap read = shorter.filterMap read := by
  induction h with
  | nil => rfl
  | keep x _ ih =>
    rw [List.filterMap_cons, List.filterMap_cons, ih]
  | put hx _ ih =>
    rw [List.filterMap_cons_none (hread _ hx), ih]

lemma Padded.filter_eq (h : Padded extra shorter longer) {keeps : α → Bool}
    (hkeeps : ∀ x, extra x → keeps x = false) : longer.filter keeps = shorter.filter keeps := by
  have hguard : ∀ x, extra x → Option.guard keeps x = none :=
    fun x hx => Option.guard_eq_none_iff.mpr (hkeeps x hx)
  rw [← List.filterMap_eq_filter, h.filterMap_eq hguard]

end Padded

/-- A value that is no node of the UI form, or one whose id cannot be used. -/
def UiNode.IsUnusable (value : Json) : Prop :=
  ∀ ui, UiNode.ofJson? value = some ui → idText? ui.id = none

/-- A value that is no row of a link table. -/
def UiLink.IsUnusable (value : Json) : Prop := UiLink.ofJson? value = none

/-- The rows of the link table of a workflow; none without an array of them. -/
def UiWorkflow.rows (value : Json) : List Json := ((value.get? "links").bind Json.array?).getD []

/-- `padded` is the workflow `value` with values that are no nodes put into its nodes and values
that are no rows put into its link table. -/
structure UiPadded (value padded : Json) : Prop where
  nodes : ∃ shorter longer, value.get? "nodes" = some (.arr shorter) ∧
    padded.get? "nodes" = some (.arr longer) ∧ Padded UiNode.IsUnusable shorter longer
  rows : Padded UiLink.IsUnusable (UiWorkflow.rows value) (UiWorkflow.rows padded)

namespace Graph

lemma ofUi_of_nodes {value : Json} {nodes : List Json}
    (h : value.get? "nodes" = some (.arr nodes)) :
    ofUi value = .ok (ofNodes (uiNodes ⟨nodes.filterMap UiNode.ofJson?,
      (UiWorkflow.rows value).filterMap UiLink.ofJson?⟩)) := by
  refine ofUi_of_ofJson? ?_
  rw [UiWorkflow.ofJson?, h]
  rfl

lemma node?_of_isUnusable {value : Json} (h : UiNode.IsUnusable value)
    (origin? : Int → Option Link) : ((UiNode.ofJson? value).bind (·.node? origin?)) = none := by
  cases hread : UiNode.ofJson? value with
  | none => rfl
  | some ui => rw [Option.bind_some, UiNode.node?, h ui hread, Option.map_none]

lemma uiNodes_of_padded {shorter longer : List Json} (h : Padded UiNode.IsUnusable shorter longer)
    (links : List UiLink) : uiNodes ⟨longer.filterMap UiNode.ofJson?, links⟩ =
      uiNodes ⟨shorter.filterMap UiNode.ofJson?, links⟩ := by
  simp only [uiNodes, List.filterMap_filterMap]
  exact h.filterMap_eq fun _ hx => node?_of_isUnusable hx _

lemma ofUi_of_uiPadded {value padded : Json} (h : UiPadded value padded) :
    ∃ graph, ofUi value = .ok graph ∧ ofUi padded = .ok graph := by
  obtain ⟨shorter, longer, hshorter, hlonger, hnodes⟩ := h.nodes
  refine ⟨_, ofUi_of_nodes hshorter, ?_⟩
  have hrows := h.rows.filterMap_eq fun row (hrow : UiLink.ofJson? row = none) => hrow
  rw [ofUi_of_nodes hlonger, hrows, uiNodes_of_padded hnodes]

end Graph

/-- A member that is no node of the API form. -/
def ApiNode.IsUnusable (member : String × Json) : Prop := member.2.isObject = false

namespace Graph

variable {id : String} {entry other : Json} {before after : List (String × Json)}

lemma ofApi_of_padded {shorter longer : List (String × Json)}
    (h : Padded ApiNode.IsUnusable shorter longer) :
    ∃ graph, ofApi (.obj shorter) = .ok graph ∧ ofApi (.obj longer) = .ok graph := by
  refine ⟨_, ofApi_obj shorter, ?_⟩
  rw [ofApi_obj, apiNodes, h.filter_eq fun _ hx => hx]
  rfl

lemma apiNodes_append_cons (hentry : entry.isObject = true) :
    apiNodes (before ++ (id, entry) :: after) =
      apiNodes before ++ (ApiNode.ofJson entry).node id :: apiNodes after := by
  rw [apiNodes, List.filter_append, List.filter_cons, if_pos hentry, List.map_append, List.map_cons]
  rfl

/-- The places of a node that is the first one with its id do not depend on what else it holds. -/
lemma exists_firstOfEachId_eq {nodes : List Node} (hid : id ∉ nodes.map Node.id)
    (others : List Node) :
    ∃ front back, (∀ node ∈ front ++ back, node.id ≠ id) ∧ ∀ node, node.id = id →
      firstOfEachId (nodes ++ node :: others) = front ++ node :: back := by
  induction nodes with
  | nil =>
    refine ⟨[], (firstOfEachId others).filter fun node => node.id != id, ?_, ?_⟩
    · intro node hnode
      have hne := (List.mem_filter.mp hnode).2
      simpa using hne
    · rintro node rfl
      rfl
  | cons first rest ih =>
    obtain ⟨hfirst, hrest⟩ := List.ne_and_not_mem_of_not_mem_cons hid
    obtain ⟨front, back, hne, heq⟩ := ih hrest
    refine ⟨first :: front.filter (fun node => node.id != first.id),
      back.filter (fun node => node.id != first.id), ?_, ?_⟩
    · intro node hnode
      rw [List.cons_append, List.mem_cons, ← List.filter_append] at hnode
      rcases hnode with rfl | hnode
      · exact Ne.symm hfirst
      · exact hne node (List.mem_of_mem_filter hnode)
    · intro node hnode
      have hkept : (node.id != first.id) = true := by simpa [hnode] using hfirst
      rw [List.cons_append, firstOfEachId, heq node hnode, List.filter_append, List.filter_cons,
        if_pos hkept, List.cons_append]

/-- Two graphs are the same but for one node in the same place, with the id `id` in both, and for
the edges into it. -/
structure DifferAt (id : String) (node node' : Node) (graph graph' : Graph) : Prop where
  nodes : ∃ front back, graph.nodes = front ++ node :: back ∧
    graph'.nodes = front ++ node' :: back ∧ ∀ other ∈ front ++ back, other.id ≠ id
  edges : graph.edges.filter (·.target != id) = graph'.edges.filter (·.target != id)

lemma filter_edgesInto_of_ne {graph : Graph} {node : Node} (h : node.id ≠ id) :
    (graph.edgesInto node).filter (·.target != id) = graph.edgesInto node := by
  rw [List.filter_eq_self]
  intro edge hedge
  obtain ⟨link, -, rfl⟩ := List.mem_map.mp hedge
  simpa using h

lemma filter_edgesInto_of_eq {graph : Graph} {node : Node} (h : node.id = id) :
    (graph.edgesInto node).filter (·.target != id) = [] := by
  rw [List.filter_eq_nil_iff]
  intro edge hedge
  obtain ⟨link, -, rfl⟩ := List.mem_map.mp hedge
  simp [h]

lemma edgesInto_congr {graph graph' : Graph}
    (h : graph.nodes.map Node.id = graph'.nodes.map Node.id) (node : Node) :
    graph.edgesInto node = graph'.edgesInto node := by
  have hhas : ∀ source, graph.hasNode source = graph'.hasNode source := fun source =>
    Bool.eq_iff_iff.mpr (by rw [hasNode_iff, hasNode_iff, h])
  simp only [edgesInto, hhas]

/-- The edges into other nodes come from the nodes in front of it and behind it. -/
lemma filter_edges_of_isConnected {graph : Graph} (hc : graph.IsConnected) {front back : List Node}
    {node : Node} (hnodes : graph.nodes = front ++ node :: back) (hid : node.id = id)
    (hne : ∀ other ∈ front ++ back, other.id ≠ id) :
    graph.edges.filter (·.target != id) = (front ++ back).flatMap graph.edgesInto := by
  have hkeep : ∀ nodes : List Node, (∀ other ∈ nodes, other.id ≠ id) →
      (nodes.flatMap graph.edgesInto).filter (·.target != id) = nodes.flatMap graph.edgesInto := by
    intro nodes hnodes
    rw [List.filter_flatMap]
    exact List.flatMap_congr fun other hother => filter_edgesInto_of_ne (hnodes other hother)
  obtain ⟨hfront, hback⟩ := List.forall_mem_append.mp hne
  rw [hc, hnodes, List.flatMap_append, List.flatMap_cons, List.filter_append, List.filter_append,
    hkeep front hfront, filter_edgesInto_of_eq hid, List.nil_append, hkeep back hback,
    List.flatMap_append]

lemma differAt_ofNodes {nodes others : List Node} {node node' : Node}
    (hid : node.id = id) (hid' : node'.id = id) (hfirst : id ∉ nodes.map Node.id) :
    DifferAt id node node' (ofNodes (nodes ++ node :: others))
      (ofNodes (nodes ++ node' :: others)) := by
  obtain ⟨front, back, hne, heq⟩ := exists_firstOfEachId_eq hfirst others
  have hnodes := (keeps_ofNodes (nodes ++ node :: others)).nodes.trans (heq node hid)
  have hnodes' := (keeps_ofNodes (nodes ++ node' :: others)).nodes.trans (heq node' hid')
  have hids : (ofNodes (nodes ++ node :: others)).nodes.map Node.id =
      (ofNodes (nodes ++ node' :: others)).nodes.map Node.id := by
    simp only [hnodes, hnodes', List.map_append, List.map_cons, hid, hid']
  have hconnected : ∀ all, (ofNodes all).IsConnected := fun _ => isConnected_connected _
  refine ⟨⟨front, back, hnodes, hnodes', hne⟩, ?_⟩
  rw [filter_edges_of_isConnected (hconnected _) hnodes hid hne,
    filter_edges_of_isConnected (hconnected _) hnodes' hid' hne]
  exact List.flatMap_congr fun other _ => edgesInto_congr hids other

lemma notMem_ids_apiNodes (h : id ∉ before.map Prod.fst) :
    id ∉ (apiNodes before).map Node.id := by
  intro hmem
  obtain ⟨node, hnode, rfl⟩ := List.mem_map.mp hmem
  obtain ⟨member, hmember, rfl⟩ := List.mem_map.mp hnode
  exact h (List.mem_map_of_mem (List.mem_of_mem_filter hmember))

lemma ofApi_of_replaced (hentry : entry.isObject = true) (hother : other.isObject = true)
    (hid : id ∉ before.map Prod.fst) :
    ∃ graph graph', ofApi (.obj (before ++ (id, entry) :: after)) = .ok graph ∧
      ofApi (.obj (before ++ (id, other) :: after)) = .ok graph' ∧
      DifferAt id ((ApiNode.ofJson entry).node id) ((ApiNode.ofJson other).node id)
        graph graph' := by
  refine ⟨_, _, ofApi_obj _, ofApi_obj _, ?_⟩
  rw [apiNodes_append_cons hentry, apiNodes_append_cons hother]
  exact differAt_ofNodes rfl rfl (notMem_ids_apiNodes hid)

/-- One malformed entry does no harm to the rest of a workflow: what is no node and no row of the
link table leaves the graph of the UI form as it is, what is no object leaves that of the API form
as it is, and an object that is replaced by another one there changes its own node only. -/
theorem graph_of_malformed_entries :
    (∀ value padded, UiPadded value padded →
      ∃ graph, ofUi value = .ok graph ∧ ofUi padded = .ok graph) ∧
    (∀ shorter longer, Padded ApiNode.IsUnusable shorter longer →
      ∃ graph, ofApi (.obj shorter) = .ok graph ∧ ofApi (.obj longer) = .ok graph) ∧
    ∀ before after id entry other, entry.isObject = true → other.isObject = true →
      id ∉ before.map Prod.fst →
        ∃ graph graph', ofApi (.obj (before ++ (id, entry) :: after)) = .ok graph ∧
          ofApi (.obj (before ++ (id, other) :: after)) = .ok graph' ∧
          DifferAt id ((ApiNode.ofJson entry).node id) ((ApiNode.ofJson other).node id)
            graph graph' :=
  ⟨fun _ _ => ofUi_of_uiPadded, fun _ _ => ofApi_of_padded,
    fun _ _ _ _ _ => ofApi_of_replaced⟩

def savingNode (id : Int) : Json :=
  .obj [("id", .num (.int id)), ("type", .str "SaveImage"),
    ("inputs", .arr [doubledInput "images" 5])]

def strayNote : Json := .obj [("type", .str "Note")]

def savingValue : Json :=
  .obj [("nodes", .arr [savingNode 1, savingNode 2]), ("links", .arr [doubledRow 5 "1" "2"])]

/-- The same with a text, a note without an id and a row that is too short. -/
def strewnValue : Json :=
  .obj [("nodes", .arr [.str "stray", savingNode 1, strayNote, savingNode 2]),
    ("links", .arr [doubledRow 5 "1" "2", .arr [.num (.int 5)]])]

lemma uiPadded_strewnValue : UiPadded savingValue strewnValue where
  nodes := by
    refine ⟨_, _, rfl, rfl, ?_⟩
    have hstray : UiNode.IsUnusable (.str "stray") := fun _ h => nomatch h
    have hnote : UiNode.IsUnusable strayNote := by
      intro ui h
      obtain rfl := Option.some.inj h
      rfl
    exact .put hstray (.keep _ (.put hnote (.keep _ .nil)))
  rows := by
    have hshort : UiLink.IsUnusable (.arr [.num (.int 5)]) := rfl
    exact .keep _ (.put hshort .nil)

theorem graph_of_malformed_entries_strewnValue :
    UiPadded savingValue strewnValue ∧
    (∃ graph, ofUi savingValue = .ok graph ∧ ofUi strewnValue = .ok graph) ∧
    (∃ graph, ofApi (.obj [("1", savingNode 1)]) = .ok graph ∧
      ofApi (.obj [("0", .null), ("1", savingNode 1)]) = .ok graph) ∧
    ∃ graph graph', ofApi (.obj [("1", savingNode 1), ("2", strayNote)]) = .ok graph ∧
      ofApi (.obj [("1", savingNode 1), ("2", savingNode 2)]) = .ok graph' ∧
      DifferAt "2" ((ApiNode.ofJson strayNote).node "2") ((ApiNode.ofJson (savingNode 2)).node "2")
        graph graph' := by
  obtain ⟨hui, hapi, hreplaced⟩ := graph_of_malformed_entries
  have hnull : ApiNode.IsUnusable ("0", .null) := rfl
  refine ⟨uiPadded_strewnValue, hui _ _ uiPadded_strewnValue,
    hapi _ _ (.put hnull (.keep _ .nil)), ?_⟩
  exact hreplaced [("1", savingNode 1)] [] "2" strayNote (savingNode 2) rfl rfl (by decide)

end Graph

end ImageRecipe.Workflow
