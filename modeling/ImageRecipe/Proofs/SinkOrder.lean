import ImageRecipe.Proofs.BuiltinLibrary
import ImageRecipe.Proofs.GraphStore
import ImageRecipe.Proofs.Upstream
import Mathlib.Data.Prod.Lex
import Mathlib.Data.Set.Finite.List
import Mathlib.Order.WellFounded

/-!
# The order of the sinks

A search begins at every node that puts images out, each of them once. They
stand in the order of the graph, but for those that only show, which come after
those that save, and those that do not run, which come after those that do. A
graph without such nodes is searched from the nodes whose values nothing uses.
If no node leads back to itself there is one of them, wherever a link is.
-/
namespace ImageRecipe

section Ranks

variable {α : Type} (rank : α → Nat)

/-- Sorting keeps what has one rank as it is. -/
lemma filter_mergeSort_rank (l : List α) (r : Nat) :
    (l.mergeSort fun a b => rank a ≤ rank b).filter (fun a => rank a = r) =
      l.filter fun a => rank a = r := by
  have hpair : (l.filter fun a => rank a = r).Pairwise fun a b =>
      decide (rank a ≤ rank b) = true := by
    refine List.pairwise_of_forall_mem_list fun a ha b hb => ?_
    have hra : rank a = r := by simpa using (List.mem_filter.mp ha).2
    have hrb : rank b = r := by simpa using (List.mem_filter.mp hb).2
    simp [hra, hrb]
  have hsub : (l.filter fun a => rank a = r).Sublist
      (l.mergeSort fun a b => rank a ≤ rank b) :=
    List.sublist_mergeSort (by grind) (by grind) hpair List.filter_sublist
  have hfilter := hsub.filter fun a => rank a = r
  rw [List.filter_filter] at hfilter
  simp only [Bool.and_self] at hfilter
  exact (hfilter.eq_of_length ((List.mergeSort_perm l _).filter _).length_eq.symm).symm

/-- Sorted by rank, a list is in the order of the ranks and, within one of them, in the order in
which it was. -/
theorem pairwise_mergeSort_rank {R : α → α → Prop} {l : List α} (h : l.Pairwise R) :
    (l.mergeSort fun a b => rank a ≤ rank b).Pairwise fun a b =>
      rank a < rank b ∨ rank a = rank b ∧ R a b := by
  have hrank : (l.mergeSort fun a b => rank a ≤ rank b).Pairwise fun a b =>
      decide (rank a ≤ rank b) = true := List.pairwise_mergeSort (by grind) (by grind) l
  rw [List.pairwise_iff_forall_sublist] at h hrank ⊢
  intro a b hab
  have hle : rank a ≤ rank b := of_decide_eq_true (hrank hab)
  refine (Nat.lt_or_eq_of_le hle).imp_right fun heq => ⟨heq, h ?_⟩
  -- both are among what has their rank, which sorting has not moved
  have hsame := hab.filter fun c => rank c = rank a
  rw [filter_mergeSort_rank] at hsame
  simpa [heq] using hsame.trans List.filter_sublist

end Ranks

namespace Workflow.Graph

variable {graph : Graph} {node : Node}

/-- No node leads back to itself. -/
def IsAcyclic (graph : Graph) : Prop := ∀ id, ¬ Relation.TransGen graph.LinksTo id id

/-- What falls along every link cannot come back. -/
lemma isAcyclic_of_height (height : String → Nat)
    (h : ∀ id source, graph.LinksTo id source → height source < height id) : graph.IsAcyclic := by
  have hchain : ∀ id source, Relation.TransGen graph.LinksTo id source →
      height source < height id := by
    intro id source hlinks
    induction hlinks with
    | single hlink => exact h _ _ hlink
    | tail _ hlink ih => exact (h _ _ hlink).trans ih
  exact fun id hcycle => Nat.lt_irrefl _ (hchain id id hcycle)

/-- No linked input of a node in the graph names the id. -/
def IsUnused (graph : Graph) (id : String) : Prop :=
  ∀ user ∈ graph.nodes, ∀ target ∈ user.targets, target.source ≠ id

lemma node?_of_mem (hdistinct : (graph.nodes.map Node.id).Nodup) (h : node ∈ graph.nodes) :
    graph.node? node.id = some node := by
  obtain ⟨before, after, hnodes⟩ := List.append_of_mem h
  rw [node?, List.find?_eq_some_iff_append]
  refine ⟨beq_self_eq_true _, before, after, hnodes, fun other hother => ?_⟩
  rw [hnodes, List.map_append, List.nodup_append] at hdistinct
  have hne := hdistinct.2.2 other.id (List.mem_map_of_mem hother) node.id (by simp)
  simpa using hne

/-- Of the nodes with a linked input one is not reached from any other: there are finitely many, and
no chain of links comes back. -/
theorem exists_isUnused_of_isAcyclic (hdistinct : (graph.nodes.map Node.id).Nodup)
    (hacyclic : graph.IsAcyclic) (hlinked : ∃ node ∈ graph.nodes, node.targets ≠ []) :
    ∃ node ∈ graph.nodes, node.targets ≠ [] ∧ graph.IsUnused node.id := by
  let Linked := {node : Node // node ∈ graph.nodes ∧ node.targets ≠ []}
  have hfinite : Finite Linked :=
    (graph.nodes.finite_toSet.subset fun node h => h.1 :
      {node : Node | node ∈ graph.nodes ∧ node.targets ≠ []}.Finite)
  let leadsTo : Linked → Linked → Prop := fun a b => Relation.TransGen graph.LinksTo a.1.id b.1.id
  have htrans : IsTrans Linked leadsTo := ⟨fun _ _ _ hab hbc => hab.trans hbc⟩
  have hirrefl : Std.Irrefl leadsTo := ⟨fun a => hacyclic a.1.id⟩
  obtain ⟨start, hstart, htargets⟩ := hlinked
  obtain ⟨⟨node, hnode, hne⟩, -, hmin⟩ :=
    (Finite.wellFounded_of_trans_of_irrefl leadsTo).has_min Set.univ
      ⟨⟨start, hstart, htargets⟩, trivial⟩
  refine ⟨node, hnode, hne, fun user huser target htarget hsource => ?_⟩
  have hlink : graph.LinksTo user.id node.id :=
    ⟨user, node?_of_mem hdistinct huser, target, htarget, hsource⟩
  exact hmin ⟨user, huser, List.ne_nil_of_mem htarget⟩ trivial (.single hlink)

/-- How many nodes the graph has before the one with this id. -/
def place (graph : Graph) (node : Node) : Nat := graph.nodes.findIdx (·.id == node.id)

lemma pairwise_place (hdistinct : (graph.nodes.map Node.id).Nodup) :
    graph.nodes.Pairwise fun a b => graph.place a < graph.place b := by
  have hplace : ∀ i (hi : i < graph.nodes.length), graph.place graph.nodes[i] = i := by
    intro i hi
    refine (List.findIdx_eq hi).mpr ⟨beq_self_eq_true _, fun j hji => ?_⟩
    have hne := List.pairwise_iff_getElem.mp hdistinct j i (by simp; omega) (by simpa) hji
    simpa using hne
  refine List.pairwise_iff_getElem.mpr fun i j hi hj hij => ?_
  rwa [hplace i hi, hplace j hj]

end Workflow.Graph

namespace Tracing

open Workflow

variable {library : NodeLibrary} {graph : Graph} {node : Node}

/-- Whether a node puts images out, by the description of its type. -/
def isRegisteredSink (library : NodeLibrary) (node : Node) : Bool :=
  ((library.get? node.classType).map (·.hasRole .sink)).getD false

/-- Whether a node only shows images, by the description of its type. -/
def isPreview (library : NodeLibrary) (node : Node) : Bool :=
  ((library.get? node.classType).map fun d => decide (d.category = .preview)).getD false

/-- The rank of a node among those that put images out. -/
def outputRank (library : NodeLibrary) (node : Node) : Nat :=
  (if isPreview library node then 2 else 0) + modeRank node

lemma sinkRank?_eq (library : NodeLibrary) (node : Node) : sinkRank? library node =
    if isRegisteredSink library node then some (outputRank library node) else none := by
  unfold sinkRank? isRegisteredSink outputRank isPreview
  cases library.get? node.classType with
  | none => rfl
  | some d => simp

/-- Nodes with their ranks are sorted as the nodes are. -/
lemma byRank_map_rank (rank : Node → Nat) (nodes : List Node) :
    byRank (nodes.map fun node => (rank node, node)) =
      nodes.mergeSort fun a b => rank a ≤ rank b := by
  have hsort : (nodes.mergeSort fun a b => rank a ≤ rank b).map (fun node => (rank node, node)) =
      (nodes.map fun node => (rank node, node)).mergeSort fun a b => a.1 ≤ b.1 :=
    List.map_mergeSort fun _ _ _ _ => rfl
  rw [byRank, ← hsort, List.map_map]
  exact List.map_id _

lemma rankedSinks_eq (library : NodeLibrary) (graph : Graph) : rankedSinks library graph =
    (graph.nodes.filter (isRegisteredSink library)).map fun node =>
      (outputRank library node, node) := by
  have hranked : ∀ node, (sinkRank? library node).map (fun rank => (rank, node)) =
      if isRegisteredSink library node then some (outputRank library node, node) else none := by
    intro node
    rw [sinkRank?_eq]
    split <;> rfl
  rw [rankedSinks, List.filterMap_congr fun node _ => hranked node]
  induction graph.nodes with
  | nil => rfl
  | cons node rest ih => cases h : isRegisteredSink library node <;> simp [h, ih]

/-- The nodes that put images out by their rank, or the leaves with a linked input by theirs. -/
theorem sinks_eq (library : NodeLibrary) (graph : Graph) : sinks library graph =
    if graph.nodes.any (isRegisteredSink library) then
      (graph.nodes.filter (isRegisteredSink library)).mergeSort fun a b =>
        outputRank library a ≤ outputRank library b
    else
      (graph.nodes.filter fun node => node.firstLink?.isSome && graph.isLeaf node.id).mergeSort
        fun a b => modeRank a ≤ modeRank b := by
  have hempty : (rankedSinks library graph).isEmpty =
      !graph.nodes.any (isRegisteredSink library) := by
    rw [rankedSinks_eq, Bool.eq_iff_iff]
    simp
  rw [sinks, hempty]
  cases graph.nodes.any (isRegisteredSink library) with
  | true => rw [Bool.not_true, if_neg Bool.false_ne_true, if_pos rfl, rankedSinks_eq,
      byRank_map_rank]
  | false => rw [Bool.not_false, if_pos rfl, if_neg Bool.false_ne_true, rankedLeaves,
      byRank_map_rank]

lemma sinks_of_single {sink : Node} (h : graph.nodes.filter (isRegisteredSink library) = [sink]) :
    sinks library graph = [sink] := by
  have hany : graph.nodes.any (isRegisteredSink library) = true := by
    have hsink : sink ∈ graph.nodes.filter (isRegisteredSink library) := by simp [h]
    exact List.any_eq_true.mpr ⟨sink, List.mem_filter.mp hsink⟩
  rw [sinks_eq, if_pos hany, h, List.mergeSort_singleton]

/-- What is compared of two nodes that put images out: whether they only show, then whether they do
not run, then their places. -/
def outputKey (library : NodeLibrary) (graph : Graph) (node : Node) : Bool ×ₗ Bool ×ₗ Nat :=
  toLex (isPreview library node, toLex (node.mode.isSkipped, graph.place node))

/-- What is compared of two leaves: whether they do not run, then their places. -/
def leafKey (graph : Graph) (node : Node) : Bool ×ₗ Nat :=
  toLex (node.mode.isSkipped, graph.place node)

lemma leafKey_lt {a b : Node} (h : modeRank a < modeRank b ∨
    modeRank a = modeRank b ∧ graph.place a < graph.place b) :
    leafKey graph a < leafKey graph b := by
  rw [leafKey, leafKey, Prod.Lex.toLex_lt_toLex]
  unfold modeRank at h
  revert h
  cases a.mode.isSkipped <;> cases b.mode.isSkipped <;> simp

lemma outputKey_lt {a b : Node} (h : outputRank library a < outputRank library b ∨
    outputRank library a = outputRank library b ∧ graph.place a < graph.place b) :
    outputKey library graph a < outputKey library graph b := by
  rw [outputKey, outputKey, Prod.Lex.toLex_lt_toLex, Prod.Lex.toLex_lt_toLex]
  unfold outputRank modeRank at h
  revert h
  cases isPreview library a <;> cases isPreview library b <;>
    cases a.mode.isSkipped <;> cases b.mode.isSkipped <;> simp

/-- The sinks are sorted out of nodes of the graph, so each of them is there once. -/
lemma nodup_sinks (hdistinct : (graph.nodes.map Node.id).Nodup) :
    ((sinks library graph).map Node.id).Nodup := by
  have hsort : ∀ (p : Node → Bool) (rank : Node → Nat),
      (((graph.nodes.filter p).mergeSort fun a b => rank a ≤ rank b).map Node.id).Nodup :=
    fun p rank => ((List.mergeSort_perm _ _).map Node.id).nodup_iff.mpr
      (hdistinct.sublist (List.filter_sublist.map Node.id))
  rw [sinks_eq]
  split
  · exact hsort _ _
  · exact hsort _ _

/-- The nodes that put images out, if there are any. -/
lemma sinks_of_registered (hdistinct : (graph.nodes.map Node.id).Nodup)
    (h : ∃ node ∈ graph.nodes, isRegisteredSink library node = true) :
    (∀ node, node ∈ sinks library graph ↔
      node ∈ graph.nodes ∧ isRegisteredSink library node = true) ∧
    (sinks library graph).Pairwise fun a b =>
      outputKey library graph a < outputKey library graph b := by
  rw [sinks_eq, if_pos (List.any_eq_true.mpr h)]
  refine ⟨fun node => by rw [List.mem_mergeSort, List.mem_filter], ?_⟩
  have hplace := (Graph.pairwise_place hdistinct).filter (isRegisteredSink library)
  exact (pairwise_mergeSort_rank (outputRank library) hplace).imp outputKey_lt

/-- The leaves with a linked input, if no node puts images out. -/
lemma sinks_of_unregistered (hdistinct : (graph.nodes.map Node.id).Nodup) (hwired : graph.Wired)
    (h : ¬ ∃ node ∈ graph.nodes, isRegisteredSink library node = true) :
    (∀ node, node ∈ sinks library graph ↔
      node ∈ graph.nodes ∧ node.targets ≠ [] ∧ graph.IsUnused node.id) ∧
    (sinks library graph).Pairwise fun a b => leafKey graph a < leafKey graph b := by
  rw [sinks_eq, if_neg (List.any_eq_true.not.mpr h)]
  have hleaf : ∀ node ∈ graph.nodes, (node.firstLink?.isSome && graph.isLeaf node.id) = true ↔
      node.targets ≠ [] ∧ graph.IsUnused node.id := by
    intro node hnode
    have hlink : node.firstLink?.isSome = true ↔ node.targets ≠ [] := by
      simp [Node.firstLink?, Node.targets]
    rw [Bool.and_eq_true, hlink, hwired.leaf_iff,
      and_iff_right (List.mem_map_of_mem hnode : node.id ∈ graph.nodes.map Node.id)]
    rfl
  refine ⟨fun node => ?_, ?_⟩
  · rw [List.mem_mergeSort, List.mem_filter]
    exact and_congr_right fun hnode => hleaf node hnode
  · have hplace := (Graph.pairwise_place hdistinct).filter fun node =>
      node.firstLink?.isSome && graph.isLeaf node.id
    exact (pairwise_mergeSort_rank modeRank hplace).imp leafKey_lt

/-- In the graph of a saved workflow a search begins at every node that puts images out and nowhere
else, in the order of what is compared of them. If there is none, it begins at the nodes with a
linked input that no linked input names, in their order; and there is such a node unless nothing is
linked or some node leads back to itself. -/
theorem sinks_complete (library : NodeLibrary) (value : Json) (graph : Graph)
    (hgraph : Graph.ofApi value = .ok graph ∨ Graph.ofUi value = .ok graph) :
    ((sinks library graph).map Node.id).Nodup ∧
    ((∃ node ∈ graph.nodes, isRegisteredSink library node = true) →
      (∀ node, node ∈ sinks library graph ↔
        node ∈ graph.nodes ∧ isRegisteredSink library node = true) ∧
      (sinks library graph).Pairwise fun a b =>
        outputKey library graph a < outputKey library graph b) ∧
    ((¬ ∃ node ∈ graph.nodes, isRegisteredSink library node = true) →
      (∀ node, node ∈ sinks library graph ↔
        node ∈ graph.nodes ∧ node.targets ≠ [] ∧ graph.IsUnused node.id) ∧
      ((sinks library graph).Pairwise fun a b => leafKey graph a < leafKey graph b) ∧
      (graph.IsAcyclic → (∃ node ∈ graph.nodes, node.targets ≠ []) →
        sinks library graph ≠ [])) := by
  obtain ⟨nodes, rfl⟩ : ∃ nodes, graph = .ofNodes nodes := by
    rcases hgraph with hapi | hui
    · obtain ⟨members, -, hnodes⟩ := Graph.exists_ofNodes_of_ofApi hapi
      exact ⟨_, hnodes⟩
    · obtain ⟨workflow, -, hnodes⟩ := Graph.exists_ofNodes_of_ofUi hui
      exact ⟨_, hnodes⟩
  have hdistinct := (Graph.keeps_ofNodes nodes).distinct
  refine ⟨nodup_sinks hdistinct, sinks_of_registered hdistinct, fun hnone => ?_⟩
  obtain ⟨hmem, horder⟩ := sinks_of_unregistered hdistinct (Graph.wired_ofNodes nodes) hnone
  refine ⟨hmem, horder, fun hacyclic hlinked => ?_⟩
  obtain ⟨node, hnode⟩ := Graph.exists_isUnused_of_isAcyclic hdistinct hacyclic hlinked
  exact List.ne_nil_of_mem ((hmem node).mpr hnode)

def apiMember (classType : String) (mode : Int) (input source : String) : Json :=
  .obj [("class_type", .str classType), ("mode", .num (.int mode)),
    ("inputs", .obj [(input, .arr [.str source, .num (.int 0)])])]

/-- A preview, a save that is muted and one that runs. -/
def previewedValue : Json := .obj [
  ("1", apiMember "PreviewImage" 0 "images" "0"),
  ("2", apiMember "SaveImage" 2 "images" "0"),
  ("3", apiMember "SaveImage" 0 "images" "0")]

def previewedNodes : List Node := [
  ⟨"1", "PreviewImage", none, [("images", .link ⟨"0", 0⟩)], [], .active⟩,
  ⟨"2", "SaveImage", none, [("images", .link ⟨"0", 0⟩)], [], .muted⟩,
  ⟨"3", "SaveImage", none, [("images", .link ⟨"0", 0⟩)], [], .active⟩]

/-- A sampler whose latent comes from another one, which has a model that is not there. -/
def twoPassValue : Json := .obj [
  ("1", apiMember "KSampler" 0 "model" "0"),
  ("2", apiMember "KSampler" 0 "latent_image" "1")]

def twoPassNodes : List Node := [
  ⟨"1", "KSampler", none, [("model", .link ⟨"0", 0⟩)], [], .active⟩,
  ⟨"2", "KSampler", none, [("latent_image", .link ⟨"1", 0⟩)], [], .active⟩]

/-- Its links lead from the second sampler to the first and from there out of the graph. -/
lemma isAcyclic_twoPassNodes : (Graph.ofNodes twoPassNodes).IsAcyclic := by
  refine Graph.isAcyclic_of_height (fun id => if id = "2" then 2 else if id = "1" then 1 else 0) ?_
  rintro id _ ⟨node, hnode, target, htarget, rfl⟩
  obtain ⟨rfl, hmem⟩ : node.id = id ∧ node ∈ twoPassNodes :=
    ⟨by simpa using List.find?_some hnode,
      Graph.mem_of_mem_ofNodes (List.mem_of_find?_eq_some hnode)⟩
  rcases List.mem_pair.mp hmem with rfl | rfl
  · cases List.mem_singleton.mp htarget
    decide
  · cases List.mem_singleton.mp htarget
    decide

theorem sinks_complete_previewed_twoPass :
    Graph.ofApi previewedValue = .ok (.ofNodes previewedNodes) ∧
    (sinks .builtin (.ofNodes previewedNodes)).Pairwise (fun a b =>
      outputKey .builtin (.ofNodes previewedNodes) a <
        outputKey .builtin (.ofNodes previewedNodes) b) ∧
    Graph.ofApi twoPassValue = .ok (.ofNodes twoPassNodes) ∧
    sinks .builtin (.ofNodes twoPassNodes) ≠ [] := by
  have hpreviewed : Graph.ofApi previewedValue = .ok (.ofNodes previewedNodes) := Graph.ofApi_obj _
  have htwoPass : Graph.ofApi twoPassValue = .ok (.ofNodes twoPassNodes) := Graph.ofApi_obj _
  have hsome : ∃ node ∈ (Graph.ofNodes previewedNodes).nodes,
      isRegisteredSink .builtin node = true := by
    rw [NodeLibrary.builtin_eq_catalogues]
    decide +kernel
  have hnone : ¬ ∃ node ∈ (Graph.ofNodes twoPassNodes).nodes,
      isRegisteredSink .builtin node = true := by
    rw [NodeLibrary.builtin_eq_catalogues]
    decide +kernel
  have hfirst := sinks_complete .builtin previewedValue (.ofNodes previewedNodes) (.inl hpreviewed)
  have hsecond := sinks_complete .builtin twoPassValue (.ofNodes twoPassNodes) (.inl htwoPass)
  refine ⟨hpreviewed, (hfirst.2.1 hsome).2, htwoPass, ?_⟩
  refine (hsecond.2.2 hnone).2.2 isAcyclic_twoPassNodes ?_
  exact ⟨twoPassNodes[0], List.mem_cons_self, List.cons_ne_nil _ _⟩

end Tracing

end ImageRecipe
