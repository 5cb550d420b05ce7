import ImageRecipe.Proofs.FreeWalk
import ImageRecipe.Proofs.Rewiring
import ImageRecipe.Proofs.Routes

/-!
# Wiring past a node

A search that comes to a node that does not run leaves it through the input that
stands in for the output it came from, and there are other nodes that it leaves
towards one source wherever it comes from. If the consumers of such a node are
wired straight to that source, free walks are the same but for the node itself,
which they come to at most once. The detour over it costs one node and at most
one level of depth, so the graph with the node needs a ceiling that is higher by
one, and no more than that.
-/
namespace ImageRecipe

namespace Workflow.Graph

/-- A node does not run, all links to it come from its output `slot`, and `source` is the link
behind the input that stands in for this output. -/
structure Bypasses (graph : Graph) (library : NodeLibrary) (skipped : Node) (slot : UInt32)
    (source : Link) : Prop where
  found : graph.node? skipped.id = some skipped
  isSkipped : skipped.mode.isSkipped = true
  consumers : ∀ node ∈ graph.nodes, ∀ target ∈ node.targets,
    target.source = skipped.id → target.slot = slot
  standIn : Tracing.standIn? (library.get? skipped.classType) skipped (some slot) = some source
  source_ne : source.source ≠ skipped.id

/-- A link to the node `id` leads to `source` instead. -/
def leadPast (id : String) (source target : Link) : Link :=
  if target.source = id then source else target

/-- The graph in which every link to the node `id` is replaced by `source`. -/
def wiredPast (graph : Graph) (id : String) (source : Link) : Graph :=
  graph.redirect (leadPast id source)

lemma source_leadPast_ne {id : String} {source : Link} (h : source.source ≠ id) (target : Link) :
    (leadPast id source target).source ≠ id := by
  unfold leadPast
  split
  · exact h
  · assumption

lemma controlsUnlinked_redirect {graph : Graph} {library : NodeLibrary}
    (h : graph.ControlsUnlinked library) (lead : Link → Link) :
    (graph.redirect lead).ControlsUnlinked library := by
  intro node hn d hd switch hs
  obtain ⟨original, ho, rfl⟩ := graph.mem_nodes_redirect lead hn
  rw [Node.link?_redirect, h original ho d hd switch hs]
  rfl

end Workflow.Graph

namespace Tracing

open Workflow

section Depths

variable {library : NodeLibrary} {param : Param}

lemma depthBehind_redirect (lead : Link → Link) (node : Node) :
    depthBehind library param (node.redirect lead) = depthBehind library param node := rfl

lemma le_depthBehind (node : Node) (depth : Nat) :
    depth ≤ depthBehind library param node depth := by
  unfold depthBehind
  split <;> omega

/-- A node that is begun `more` levels deeper is left at most `more` levels deeper. -/
lemma depthBehind_le_add {node : Node} {depth depth' more : Nat} (h : depth' ≤ depth + more) :
    depthBehind library param node depth' ≤ depthBehind library param node depth + more := by
  unfold depthBehind
  split <;> omega

lemma countedDepths_redirect (lead : Link → Link) (depth : Nat) (path : List Node) :
    countedDepths library param depth (path.map (·.redirect lead)) =
      countedDepths library param depth path := by
  induction path generalizing depth with
  | nil => rfl
  | cons node path ih => rw [List.map_cons, countedDepths, countedDepths, depthBehind_redirect, ih]

lemma countedDepths_append (depth : Nat) (path rest : List Node) :
    countedDepths library param depth (path ++ rest) =
      countedDepths library param depth path ++
        countedDepths library param
          (path.foldl (fun depth node => depthBehind library param node depth) depth) rest := by
  induction path generalizing depth with
  | nil => rfl
  | cons node path ih =>
    rw [List.cons_append, countedDepths, ih, countedDepths, List.cons_append, List.foldl_cons]

/-- A part of a path that is begun at most `more` levels deeper stays within a ceiling that is
higher by `more`. Induction on which nodes the part leaves out. -/
lemma countedDepths_le_of_sublist {part path : List Node} (h : part.Sublist path)
    {depth depth' more ceiling : Nat} (hle : depth' ≤ depth + more)
    (hd : ∀ k ∈ countedDepths library param depth path, k ≤ ceiling) :
    ∀ k ∈ countedDepths library param depth' part, k ≤ ceiling + more := by
  induction h generalizing depth depth' with
  | slnil => simp [countedDepths]
  | @cons part path node _ ih =>
    have hbehind : depth ≤ depthBehind library param node depth := le_depthBehind node depth
    have hle' : depth' ≤ depthBehind library param node depth + more := by omega
    exact ih hle' fun k hk => hd k (List.mem_cons_of_mem _ hk)
  | @cons_cons part path node _ ih =>
    intro k hk
    rcases List.mem_cons.mp hk with rfl | hk
    · have hhead : depth ≤ ceiling := hd depth List.mem_cons_self
      omega
    · exact ih (depthBehind_le_add hle) (fun k hk => hd k (List.mem_cons_of_mem _ hk)) k hk

/-- A node that is put into a path, not behind its end, takes it at most one level deeper. -/
lemma countedDepths_le_of_insert {before after : List Node} (node : Node) {depth ceiling : Nat}
    (hne : after ≠ [])
    (hd : ∀ k ∈ countedDepths library param depth (before ++ after), k ≤ ceiling) :
    ∀ k ∈ countedDepths library param depth (before ++ node :: after), k ≤ ceiling + 1 := by
  rw [countedDepths_append] at hd ⊢
  let reached := before.foldl (fun depth node => depthBehind library param node depth) depth
  have hbefore : ∀ k ∈ countedDepths library param depth before, k ≤ ceiling :=
    fun k hk => hd k (List.mem_append_left _ hk)
  have hafter : ∀ k ∈ countedDepths library param reached after, k ≤ ceiling :=
    fun k hk => hd k (List.mem_append_right _ hk)
  -- the node is as deep as the one behind it was
  have hreached : reached ≤ ceiling := by
    obtain ⟨first, rest, rfl⟩ := List.exists_cons_of_ne_nil hne
    exact hafter reached List.mem_cons_self
  have hbehind := depthBehind_le_succ library param node reached
  intro k hk
  rcases List.mem_append.mp hk with hk | hk
  · exact Nat.le_succ_of_le (hbefore k hk)
  rcases List.mem_cons.mp hk with rfl | hk
  · exact Nat.le_succ_of_le hreached
  · exact countedDepths_le_of_sublist (List.Sublist.refl after) hbehind hafter k hk

end Depths

/-- The move with its link, if it goes on, leading elsewhere. -/
def Move.redirect (lead : Link → Link) : Move → Move
  | .ends value => .ends value
  | .onward target => .onward (lead target)

lemma FreeWalk.ne_nil {search : Search} {param : Param} {id : String} {slot : Option UInt32}
    {path : List Node} {value : Json} (h : FreeWalk search param id slot path value) :
    path ≠ [] := by
  cases h <;> simp

/-- A free walk has one course only. -/
lemma FreeWalk.path_unique {search : Search} {param : Param} {id : String} {slot : Option UInt32}
    {path path' : List Node} {value value' : Json}
    (h : FreeWalk search param id slot path value)
    (h' : FreeWalk search param id slot path' value') : path = path' := by
  induction h generalizing path' with
  | here hn hm =>
    cases h' with
    | here hn' hm' => rw [Option.some.inj (hn.symm.trans hn')]
    | onward hn' hm' hw' =>
      cases hn.symm.trans hn'
      cases hm.symm.trans hm'
  | onward hn hm hw ih =>
    cases h' with
    | here hn' hm' =>
      cases hn.symm.trans hn'
      cases hm.symm.trans hm'
    | onward hn' hm' hw' =>
      cases hn.symm.trans hn'
      cases hm.symm.trans hm'
      rw [ih hw']

lemma Search.mem_targets_of_move {search : Search} {param : Param} {node : Node}
    {slot : Option UInt32} {target : Link} (h : search.move param node slot = .onward target) :
    target ∈ node.targets := by
  unfold Search.move at h
  split at h
  · rename_i s hs
    refine staysOn_of_mem_planFor search param node slot 0 (s := s) ?_ target ?_
    · rw [hs]
      exact List.mem_singleton.mpr rfl
    · cases s with
      | answer value => cases h
      | follow other depth =>
        cases h
        rfl
  · cases h

section Simulation

variable {graph : Graph} {skipped : Node} {slot : UInt32} {source : Link} {s t : Search}
  {param : Param}

/-- Two searches under the same rules, in a graph and in the graph wired past a node. -/
structure WiredPast (graph : Graph) (skipped : Node) (source : Link) (s t : Search) : Prop where
  graph_eq : s.graph = graph
  graph_eq' : t.graph = graph.wiredPast skipped.id source
  library_eq : s.library = t.library
  heuristics_eq : s.heuristics = t.heuristics
  controls : graph.ControlsUnlinked s.library

section Ruled

variable {node : Node} {via : Option UInt32} {classType name : String}
  (hmode : node.mode = .active) (htype : node.classType = classType)
include hmode htype

/-- A node with the parameter behind one of its inputs is left along the link of that input. -/
lemma Search.move_traced {target : Link}
    (hr : s.library.rule? classType param = some (.trace name))
    (hl : node.link? name = some target) : s.move param node via = .onward target := by
  rw [Search.move, planFor_traced hmode htype hr hl]
  rfl

/-- A walk ends at a node that holds the parameter in a widget. -/
lemma Search.move_held {value : Json}
    (hr : s.library.rule? classType param = some (.widget name false))
    (hh : node.Holds s.library name value) : s.move param node via = .ends (some value) := by
  rw [Search.move, planFor_held hmode htype hr hh]
  rfl

end Ruled

/-- The node that does not run is left towards the link that stands in for it. -/
lemma Search.move_skipped (hb : graph.Bypasses s.library skipped slot source) :
    s.move param skipped (some slot) = .onward source := by
  have htarget := target?_through skipped (some slot) 0 (s.library.get? skipped.classType)
  rw [hb.standIn] at htarget
  rw [Search.move, planFor_skipped hb.isSkipped]
  cases hs : Step.through (s.library.get? skipped.classType) skipped (some slot) 0 with
  | answer value =>
    rw [hs] at htarget
    cases htarget
  | follow target depth =>
    rw [hs] at htarget
    cases htarget
    rfl

/-- Every walk that comes to a node along a link leaves it towards `source`. -/
structure Search.Detours (search : Search) (param : Param) (detour : Node) (source : Link) :
    Prop where
  found : search.graph.node? detour.id = some detour
  onward : ∀ node ∈ search.graph.nodes, ∀ target ∈ node.targets, target.source = detour.id →
    search.move param detour (some target.slot) = .onward source
  source_ne : source.source ≠ detour.id

/-- A node that does not run is left through the input that stands in for the one output that its
consumers use. -/
lemma Search.detours_skipped (hb : s.graph.Bypasses s.library skipped slot source) :
    s.Detours param skipped source where
  found := hb.found
  onward := by
    intro node hnode target htarget hsource
    rw [hb.consumers node hnode target htarget hsource]
    exact Search.move_skipped hb
  source_ne := hb.source_ne

section Moves

variable (hst : WiredPast graph skipped source s t)
include hst

lemma WiredPast.node?_eq (id : String) :
    t.graph.node? id = (s.graph.node? id).map (·.redirect (Graph.leadPast skipped.id source)) := by
  rw [hst.graph_eq, hst.graph_eq']
  exact graph.node?_redirect _ id

lemma WiredPast.node?_of_node? {id : String} {node : Node} (hn : s.graph.node? id = some node) :
    t.graph.node? id = some (node.redirect (Graph.leadPast skipped.id source)) := by
  rw [hst.node?_eq, hn]
  rfl

lemma WiredPast.mem_nodes {id : String} {node : Node} (hn : s.graph.node? id = some node) :
    node ∈ graph.nodes := Graph.mem_of_node? (hst.graph_eq ▸ hn)

/-- A node makes the same move in both graphs, up to where its links lead. -/
lemma WiredPast.move_eq {node : Node} (hn : node ∈ graph.nodes) (via : Option UInt32) :
    t.move param (node.redirect (Graph.leadPast skipped.id source)) via =
      (s.move param node via).redirect (Graph.leadPast skipped.id source) := by
  have hplan : planFor t param (node.redirect (Graph.leadPast skipped.id source)) via 0 =
      (planFor s param node via 0).redirect (Graph.leadPast skipped.id source) :=
    planFor_redirect hst.library_eq hst.heuristics_eq
      (fun d hd switch hs => hst.controls node hn d hd switch hs) via 0
  rw [Search.move, Search.move, hplan]
  cases planFor s param node via 0 with
  | single step => cases step <;> rfl
  | gather entries onward => rfl
  | join separator parts => rfl
  | scale factor base => rfl

/-- A free walk in the graph, with the node left out, is one in the graph wired past it. Induction
on the walk; when it stands at the node itself, the other walk stands behind it. -/
theorem WiredPast.freeWalk_past (hb : s.Detours param skipped source) {id : String}
    {via : Option UInt32} {path : List Node} {value : Json}
    (hw : FreeWalk s param id via path value) :
    (id ≠ skipped.id → FreeWalk t param id via
      ((path.filter (·.id != skipped.id)).map
        (·.redirect (Graph.leadPast skipped.id source))) value) ∧
    (id = skipped.id → s.move param skipped via = .onward source →
      FreeWalk t param source.source (some source.slot)
        ((path.filter (·.id != skipped.id)).map
          (·.redirect (Graph.leadPast skipped.id source))) value) := by
  induction hw with
  | @here id via node value hn hm =>
    have hid : node.id = id := Graph.id_of_node? hn
    constructor
    · intro hne
      have hkeep : [node].filter (·.id != skipped.id) = [node] := by simp [hid, hne]
      rw [hkeep]
      refine .here (hst.node?_of_node? hn) ?_
      rw [hst.move_eq (hst.mem_nodes hn), hm]
      rfl
    · rintro rfl hmove
      rw [hb.found] at hn
      cases hn
      rw [hmove] at hm
      cases hm
  | @onward id via node target path value hn hm hw ih =>
    have hid : node.id = id := Graph.id_of_node? hn
    constructor
    · intro hne
      have hkeep : (node :: path).filter (·.id != skipped.id) =
          node :: path.filter (·.id != skipped.id) := by simp [hid, hne]
      have hm' : t.move param (node.redirect (Graph.leadPast skipped.id source)) via =
          .onward (Graph.leadPast skipped.id source target) := by
        rw [hst.move_eq (hst.mem_nodes hn), hm]
        rfl
      rw [hkeep]
      refine .onward (hst.node?_of_node? hn) hm' ?_
      by_cases ht : target.source = skipped.id
      · rw [Graph.leadPast, if_pos ht]
        exact ih.2 ht (hb.onward node (Graph.mem_of_node? hn) target
          (Search.mem_targets_of_move hm) ht)
      · rw [Graph.leadPast, if_neg ht]
        exact ih.1 ht
    · rintro rfl hmove
      rw [hb.found] at hn
      cases hn
      rw [hmove] at hm
      cases hm
      have hdrop : (skipped :: path).filter (·.id != skipped.id) =
          path.filter (·.id != skipped.id) := by simp
      rw [hdrop]
      exact ih.1 hb.source_ne

/-- A free walk in the graph wired past the node does not come to it. -/
lemma WiredPast.id_ne_of_mem (hb : s.Detours param skipped source) {id : String}
    {via : Option UInt32} {path : List Node} {value : Json}
    (hw : FreeWalk t param id via path value) (hne : id ≠ skipped.id) :
    ∀ node ∈ path, node.id ≠ skipped.id := by
  induction hw with
  | here hn hm =>
    intro node hmem
    rw [List.mem_singleton.mp hmem, Graph.id_of_node? hn]
    exact hne
  | @onward id via node target path value hn hm hw ih =>
    obtain ⟨original, ho, rfl⟩ := Option.map_eq_some_iff.mp ((hst.node?_eq id).symm.trans hn)
    rw [hst.move_eq (hst.mem_nodes ho)] at hm
    have htarget : target.source ≠ skipped.id := by
      cases hs : s.move param original via with
      | ends value =>
        rw [hs] at hm
        cases hm
      | onward other =>
        rw [hs] at hm
        cases hm
        exact Graph.source_leadPast_ne hb.source_ne other
    intro other hmem
    rcases List.mem_cons.mp hmem with rfl | hmem
    · rw [Graph.id_of_node? hn]
      exact hne
    · exact ih htarget other hmem

/-- A free walk in the graph wired past the node is one in the graph, or becomes one if the node is
put in at one place. It cannot be put in twice, since the walk behind it has one course only and
comes to an end. -/
theorem WiredPast.freeWalk_of_past (hb : s.Detours param skipped source) {id : String}
    {via : Option UInt32} {path : List Node} {value : Json}
    (hw : FreeWalk t param id via path value) (hne : id ≠ skipped.id) :
    (∃ original, original.map (·.redirect (Graph.leadPast skipped.id source)) = path ∧
      FreeWalk s param id via original value) ∨
    ∃ before after,
      (before ++ after).map (·.redirect (Graph.leadPast skipped.id source)) = path ∧
      FreeWalk s param id via (before ++ skipped :: after) value ∧
      FreeWalk s param source.source (some source.slot) after value := by
  induction hw with
  | @here id via node value hn hm =>
    obtain ⟨original, ho, rfl⟩ := Option.map_eq_some_iff.mp ((hst.node?_eq id).symm.trans hn)
    rw [hst.move_eq (hst.mem_nodes ho)] at hm
    refine Or.inl ⟨[original], rfl, .here ho ?_⟩
    cases hs : s.move param original via with
    | ends found =>
      rw [hs] at hm
      cases hm
      rfl
    | onward other =>
      rw [hs] at hm
      cases hm
  | @onward id via node target path value hn hm hw ih =>
    obtain ⟨original, ho, rfl⟩ := Option.map_eq_some_iff.mp ((hst.node?_eq id).symm.trans hn)
    rw [hst.move_eq (hst.mem_nodes ho)] at hm
    cases hs : s.move param original via with
    | ends found =>
      rw [hs] at hm
      cases hm
    | onward other =>
      rw [hs] at hm
      cases hm
      have hrest := ih (Graph.source_leadPast_ne hb.source_ne other)
      by_cases ht : other.source = skipped.id
      · have hmove : s.move param skipped (some other.slot) = .onward source :=
          hb.onward original (Graph.mem_of_node? ho) other (Search.mem_targets_of_move hs) ht
        simp only [Graph.leadPast, if_pos ht] at hrest
        -- the walk behind the node is one in the graph, since it has one course only
        obtain ⟨after, rfl, hafter⟩ : ∃ after,
            after.map (·.redirect (Graph.leadPast skipped.id source)) = path ∧
              FreeWalk s param source.source (some source.slot) after value := by
          rcases hrest with h | ⟨before, after, -, hlong, hshort⟩
          · exact h
          · have hlen := congrArg List.length (hlong.path_unique hshort)
            simp only [List.length_append, List.length_cons] at hlen
            omega
        have hskipped : FreeWalk s param other.source (some other.slot) (skipped :: after)
            value := by
          rw [ht]
          exact .onward hb.found hmove hafter
        exact Or.inr ⟨[original], after, rfl, .onward ho hs hskipped, hafter⟩
      · simp only [Graph.leadPast, if_neg ht] at hrest
        rcases hrest with ⟨rest, rfl, hrest⟩ | ⟨before, after, rfl, hlong, hshort⟩
        · exact Or.inl ⟨original :: rest, rfl, .onward ho hs hrest⟩
        · exact Or.inr ⟨original :: before, after, rfl, .onward ho hs hlong, hshort⟩

end Moves

/-- Without the node a walk needs no higher ceiling. -/
theorem WiredPast.endsWithin_past (hst : WiredPast graph skipped source s t)
    (hb : s.Detours param skipped source) {start : String}
    (hne : start ≠ skipped.id) {d : Nat} {value : Json} (h : EndsWithin s param d start value) :
    EndsWithin t param d start value := by
  obtain ⟨path, hw, hnodup, hlen, hdepths⟩ := h
  have hpart : (path.filter (·.id != skipped.id)).Sublist path := List.filter_sublist
  refine ⟨_, (hst.freeWalk_past hb hw).1 hne, ?_, ?_, ?_⟩
  · rw [List.map_map]
    exact hnodup.sublist (hpart.map Node.id)
  · rw [List.length_map]
    exact Nat.le_trans hpart.length_le hlen
  · rw [countedDepths_redirect, ← hst.library_eq]
    exact countedDepths_le_of_sublist hpart (Nat.le_add_left 0 0) hdepths

/-- With the node a walk needs a ceiling that is higher by one. -/
theorem WiredPast.endsWithin_of_past (hst : WiredPast graph skipped source s t)
    (hb : s.Detours param skipped source) {start : String}
    (hne : start ≠ skipped.id) {d : Nat} {value : Json} (h : EndsWithin t param d start value) :
    EndsWithin s param (d + 1) start value := by
  obtain ⟨path, hpast, hnodup, hlen, hdepths⟩ := h
  have havoid := hst.id_ne_of_mem hb hpast hne
  rw [← hst.library_eq] at hdepths
  rcases hst.freeWalk_of_past hb hpast hne with
    ⟨original, rfl, hw⟩ | ⟨before, after, rfl, hlong, hshort⟩
  · rw [List.map_map] at hnodup
    rw [countedDepths_redirect] at hdepths
    rw [List.length_map] at hlen
    exact ⟨original, hw, hnodup, by omega, fun k hk => Nat.le_succ_of_le (hdepths k hk)⟩
  rw [List.map_map] at hnodup
  rw [countedDepths_redirect] at hdepths
  rw [List.length_map, List.length_append] at hlen
  refine ⟨before ++ skipped :: after, hlong, ?_, ?_, ?_⟩
  · have hfresh : skipped.id ∉ (before ++ after).map Node.id := by
      intro hmem
      obtain ⟨node, hnode, hid⟩ := List.mem_map.mp hmem
      exact havoid _ (List.mem_map_of_mem hnode) hid
    have hperm : ((before ++ skipped :: after).map Node.id).Perm
        (skipped.id :: (before ++ after).map Node.id) :=
      (List.perm_middle.map Node.id)
    exact hperm.nodup_iff.mpr (List.nodup_cons.mpr ⟨hfresh, hnodup⟩)
  · rw [List.length_append, List.length_cons]
    omega
  · exact countedDepths_le_of_insert skipped hshort.ne_nil hdepths

end Simulation

/-- What a search for the parameter finds from `start` if its ceiling is `d`. -/
def foundWithin (graph : Graph) (settings : Settings) (param : Param) (start : String) (d : Nat) :
    Option Json :=
  (((Search.ofSettings graph .builtin { settings with maxDepth := d }).resolve start param).run
    .empty).1

variable {graph : Graph} {settings : Settings} {param : Param} {start : String} {d : Nat}

lemma foundWithin_eq_some_iff (hp : param ∈ Param.onOnePath)
    (hc : graph.ControlsUnlinked .builtin) (value : Json) :
    foundWithin graph settings param start d = some value ↔
      EndsWithin (.ofSettings graph .builtin { settings with maxDepth := d }) param
        (max 1 (min d Fault.depthLimit)) start value := by
  rw [foundWithin, Search.run_resolve]
  constructor
  · intro h
    obtain ⟨path, hw, hnodup, -, hlen, hdepths⟩ := freeWalk_of_visit hp hc h
    exact ⟨path, hw, hnodup, hlen, hdepths⟩
  · rintro ⟨path, hw, hnodup, hlen, hdepths⟩
    exact visit_of_freeWalk hp hc hw hnodup (by simp) hlen hdepths

/-- What is found over a detour is found past it, and what is found past it is found over it under
a ceiling that is higher by one. The lowest ceiling is one, and one less is the same. -/
lemma foundWithin_of_detours (hp : param ∈ Param.onOnePath) (hc : graph.ControlsUnlinked .builtin)
    {detour : Node} {source : Link}
    (hb : ∀ ceiling, (Search.ofSettings graph .builtin
      { settings with maxDepth := ceiling }).Detours param detour source)
    (hne : start ≠ detour.id) (d : Nat) :
    (∀ value, foundWithin graph settings param start d = some value →
      foundWithin (graph.wiredPast detour.id source) settings param start d = some value) ∧
    (d < 128 → ∀ value,
      foundWithin (graph.wiredPast detour.id source) settings param start d = some value →
        foundWithin graph settings param start (max d 1 + 1) = some value) := by
  have hc' : (graph.wiredPast detour.id source).ControlsUnlinked .builtin :=
    Graph.controlsUnlinked_redirect hc _
  have hst : ∀ ceiling ceiling', WiredPast graph detour source
      (.ofSettings graph .builtin { settings with maxDepth := ceiling })
      (.ofSettings (graph.wiredPast detour.id source) .builtin
        { settings with maxDepth := ceiling' }) :=
    fun ceiling ceiling' => ⟨rfl, rfl, rfl, rfl, hc⟩
  constructor
  · intro value h
    rw [foundWithin_eq_some_iff hp hc] at h
    rw [foundWithin_eq_some_iff hp hc']
    exact (hst d d).endsWithin_past (hb d) hne h
  · intro hd value h
    rw [foundWithin_eq_some_iff hp hc'] at h
    rw [foundWithin_eq_some_iff hp hc]
    have hceiling : max 1 (min (max d 1 + 1) Fault.depthLimit) =
        max 1 (min d Fault.depthLimit) + 1 := by
      rw [Fault.depthLimit]
      omega
    rw [hceiling]
    exact (hst (max d 1 + 1) d).endsWithin_of_past (hb (max d 1 + 1)) hne h

/-- A node that does not run acts as if its consumers were wired past it: what is found with it is
found without it, and what is found without it is found with it under a ceiling that is higher by
one. The lowest ceiling is one, and one less is the same. -/
theorem foundWithin_wiredPast (graph : Graph) (settings : Settings) (param : Param)
    (hp : param ∈ Param.onOnePath) (hc : graph.ControlsUnlinked .builtin) (skipped : Node)
    (slot : UInt32) (source : Link) (hb : graph.Bypasses .builtin skipped slot source)
    (start : String) (hne : start ≠ skipped.id) (d : Nat) :
    (∀ value, foundWithin graph settings param start d = some value →
      foundWithin (graph.wiredPast skipped.id source) settings param start d = some value) ∧
    (d < 128 → ∀ value,
      foundWithin (graph.wiredPast skipped.id source) settings param start d = some value →
        foundWithin graph settings param start (max d 1 + 1) = some value) :=
  foundWithin_of_detours hp hc (fun _ => Search.detours_skipped hb) hne d

def saveOfMuted : Node := ⟨"1", "SaveImage", none, [("images", .link ⟨"2", 0⟩)], [], .active⟩

def mutedReroute : Node := ⟨"2", "Reroute", none, [("", .link ⟨"3", 0⟩)], [], .muted⟩

def samplerOfMuted : Node :=
  ⟨"3", "KSampler", none, [("steps", .literal (.num (.int 20)))], [], .active⟩

/-- A muted reroute before a sampler. -/
def mutedGraph : Graph := .ofNodes [saveOfMuted, mutedReroute, samplerOfMuted]

lemma controlsUnlinked_mutedGraph : mutedGraph.ControlsUnlinked .builtin := by
  rw [NodeLibrary.builtin_eq_catalogues]
  decide +kernel

lemma bypasses_mutedGraph : mutedGraph.Bypasses .builtin mutedReroute 0 ⟨"3", 0⟩ where
  found := rfl
  isSkipped := rfl
  consumers := by decide
  standIn := by
    have hget : NodeLibrary.builtin.get? mutedReroute.classType =
        some (Catalogue.reroute "Reroute") := NodeLibrary.get?_builtin_reroute
    rw [hget]
    rfl
  source_ne := by decide

lemma freeWalk_mutedGraph (settings : Settings) :
    FreeWalk (.ofSettings mutedGraph .builtin settings) .steps "1" none
      [saveOfMuted, mutedReroute, samplerOfMuted] (.num (.int 20)) := by
  let search := Search.ofSettings mutedGraph .builtin settings
  have hsave : search.move .steps saveOfMuted none = .onward ⟨"2", 0⟩ :=
    Search.move_traced rfl rfl (NodeLibrary.rule?_saveImage .steps) rfl
  have hmuted : search.move .steps mutedReroute (some 0) = .onward ⟨"3", 0⟩ :=
    Search.move_skipped bypasses_mutedGraph
  have hsampler : search.move .steps samplerOfMuted (some 0) = .ends (some (.num (.int 20))) :=
    Search.move_held rfl rfl NodeLibrary.rule?_kSampler_steps ⟨rfl, rfl⟩
  exact .onward rfl hsave (.onward rfl hmuted (.here rfl hsampler))

/-- Without the reroute the walk has two nodes, which fit under any ceiling. -/
lemma foundWithin_pastMutedReroute (settings : Settings) (d : Nat) :
    foundWithin (mutedGraph.wiredPast mutedReroute.id ⟨"3", 0⟩) settings .steps "1" d =
      some (.num (.int 20)) := by
  have hc : (mutedGraph.wiredPast mutedReroute.id ⟨"3", 0⟩).ControlsUnlinked .builtin :=
    Graph.controlsUnlinked_redirect controlsUnlinked_mutedGraph _
  have hst : WiredPast mutedGraph mutedReroute ⟨"3", 0⟩
      (.ofSettings mutedGraph .builtin { settings with maxDepth := d })
      (.ofSettings (mutedGraph.wiredPast mutedReroute.id ⟨"3", 0⟩) .builtin
        { settings with maxDepth := d }) := ⟨rfl, rfl, rfl, rfl, controlsUnlinked_mutedGraph⟩
  have hwalk := (hst.freeWalk_past (Search.detours_skipped bypasses_mutedGraph)
    (freeWalk_mutedGraph _)).1 (by decide)
  rw [foundWithin_eq_some_iff (by decide) hc]
  refine ⟨_, hwalk, by decide, ?_, fun k hk => ?_⟩
  · change 2 ≤ _
    omega
  · have hlt : k < 0 + 2 := lt_of_mem_countedDepths hk
    omega

theorem foundWithin_mutedReroute :
    (Param.steps ∈ Param.onOnePath ∧ mutedGraph.ControlsUnlinked .builtin ∧
      mutedGraph.Bypasses .builtin mutedReroute 0 ⟨"3", 0⟩ ∧ "1" ≠ mutedReroute.id ∧ 1 < 128) ∧
    foundWithin mutedGraph {} .steps "1" 2 = some (.num (.int 20)) :=
  ⟨⟨by decide, controlsUnlinked_mutedGraph, bypasses_mutedGraph, by decide, by decide⟩,
    (foundWithin_wiredPast mutedGraph {} .steps (by decide) controlsUnlinked_mutedGraph
      mutedReroute 0 ⟨"3", 0⟩ bypasses_mutedGraph "1" (by decide) 1).2 (by decide) _
      (foundWithin_pastMutedReroute {} 1)⟩

/-- Under the ceiling zero, which counts as one, the detour does not fit under a ceiling that is
higher by one. -/
theorem foundWithin_mutedReroute_ceiling_zero :
    ∃ (graph : Graph) (skipped : Node) (slot : UInt32) (source : Link),
      graph.ControlsUnlinked .builtin ∧ graph.Bypasses .builtin skipped slot source ∧
      "1" ≠ skipped.id ∧
      foundWithin (graph.wiredPast skipped.id source) {} .steps "1" 0 = some (.num (.int 20)) ∧
      foundWithin graph {} .steps "1" (0 + 1) = none := by
  refine ⟨mutedGraph, mutedReroute, 0, ⟨"3", 0⟩, controlsUnlinked_mutedGraph, bypasses_mutedGraph,
    by decide, foundWithin_pastMutedReroute {} 0, ?_⟩
  rw [Option.eq_none_iff_forall_ne_some]
  intro value hvalue
  rw [foundWithin_eq_some_iff (by decide) controlsUnlinked_mutedGraph] at hvalue
  obtain ⟨path, hpath, -, hlen, -⟩ := hvalue
  rw [← (freeWalk_mutedGraph _).path_unique hpath] at hlen
  exact absurd hlen (by decide)

end Tracing

end ImageRecipe
