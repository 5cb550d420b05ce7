import ImageRecipe.Proofs.Upstream
import ImageRecipe.Proofs.WiringPast

/-!
# Nodes put into a link

A link may be cut and led over a node that is not used otherwise and has no
other input. Reroutes are made for this, and a node of unknown type is left in
the same way if such nodes are asked at all. Wired past the node the graph is
the old one upstream of every other node, so what is known of detours says how
searches with and without the node compare.
-/
namespace ImageRecipe

namespace Workflow

/-- The node with the link of its input at `position`, if it has one, leading to `target`. -/
def Node.relinked (node : Node) (position : Nat) (target : Link) : Node :=
  { node with inputs :=
      node.inputs.modify position fun input => (input.1, input.2.redirect fun _ => target) }

/-- The graph with the node `relay` added and an input of `consumer` linked to its output
`slot`. -/
def Graph.insert (graph : Graph) (consumer : String) (position : Nat) (relay : Node)
    (slot : UInt32) : Graph :=
  (⟨(graph.nodes.map fun node =>
      if node.id = consumer then node.relinked position ⟨relay.id, slot⟩ else node) ++ [relay],
    []⟩ : Graph).connected

/-- The types of the built-in reroutes. -/
def rerouteTypes : List String := ["Reroute", "Any Switch (rgthree)", "Reroute (rgthree)"]

lemma get?_builtin_rerouteType {classType : String} (h : classType ∈ rerouteTypes) :
    NodeLibrary.builtin.get? classType = some (Catalogue.reroute classType) := by
  have hmem : ∀ classType ∈ rerouteTypes,
      Catalogue.reroute classType ∈ NodeLibrary.catalogues := by
    simp [rerouteTypes, NodeLibrary.catalogues, Catalogue.wiring]
  exact NodeLibrary.get?_builtin_of_mem (d := Catalogue.reroute classType) (hmem classType h)

/-- A node that is left through its only link, whether it runs or not: it is a reroute, or has an
unknown type and nodes of unknown type are asked. -/
def Node.Relays (settings : Settings) (node : Node) : Prop :=
  node.classType ∈ rerouteTypes ∨
    (NodeLibrary.builtin.get? node.classType = none ∧ settings.unknownNodeHeuristics = true)

/-- The input of `consumer` at `position` is linked to `source`, and so is the only input of
`relay`, whose id does not occur in the graph. -/
structure Graph.Insertion (graph : Graph) (consumer : String) (position : Nat) (source : Link)
    (relay : Node) : Prop where
  linked : ∃ node, graph.node? consumer = some node ∧
    ∃ name, node.inputs[position]? = some (name, .link source)
  onlyInput : ∃ name, relay.inputs = [(name, .link source)]
  fresh : ∀ node ∈ graph.nodes, node.id ≠ relay.id
  unlinked : ∀ node ∈ graph.nodes, ∀ target ∈ node.targets, target.source ≠ relay.id

namespace Node

variable {node : Node} {position : Nat} {source target : Link} {lead : Link → Link}

lemma mem_targets_of_input {name : String} (h : (name, Input.link target) ∈ node.inputs) :
    target ∈ node.targets :=
  List.mem_map.mpr ⟨⟨name, target⟩, List.mem_filterMap.mpr ⟨_, h, rfl⟩, rfl⟩

/-- An input is as before if its link is led back to where it led. -/
lemma redirect_input (h : ∀ target ∈ node.targets, lead target = target)
    {entry : String × Input} (hmem : entry ∈ node.inputs) :
    (entry.1, entry.2.redirect lead) = entry := by
  obtain ⟨name, input⟩ := entry
  cases input with
  | literal value => rfl
  | link target =>
    have hlead : lead target = target := h target (mem_targets_of_input hmem)
    simp only [Input.redirect, hlead]

lemma redirect_eq_self (h : ∀ target ∈ node.targets, lead target = target) :
    node.redirect lead = node := by
  have hinputs : node.inputs.map (fun entry => (entry.1, entry.2.redirect lead)) = node.inputs :=
    (List.map_congr_left fun _ hmem => redirect_input h hmem).trans (List.map_id _)
  rw [redirect, hinputs]

/-- A relinked node is as before if its links, the new one too, are led back. -/
lemma redirect_relinked {name : String}
    (hlinked : node.inputs[position]? = some (name, .link source)) (hback : lead target = source)
    (h : ∀ target ∈ node.targets, lead target = target) :
    (node.relinked position target).redirect lead = node := by
  have hinputs : (node.relinked position target).inputs.map
      (fun entry => (entry.1, entry.2.redirect lead)) = node.inputs := by
    refine List.ext_getElem? fun i => ?_
    rw [List.getElem?_map, relinked, List.getElem?_modify]
    cases hi : node.inputs[i]? with
    | none => rfl
    | some entry =>
      by_cases hp : position = i
      · subst hp
        cases hlinked.symm.trans hi
        simp [Input.redirect, hback]
      · simpa [hp] using redirect_input h (List.mem_of_getElem? hi)
  rw [redirect, hinputs]
  rfl

/-- The same inputs are linked. Induction on the inputs. -/
lemma isSome_link?_relinked (name : String) :
    ((node.relinked position target).link? name).isSome = (node.link? name).isSome := by
  suffices h : ∀ inputs : List (String × Input), ∀ position,
      ((((inputs.modify position fun entry => (entry.1, entry.2.redirect fun _ => target)).find?
        (·.1 == name)).map (·.2)).bind Input.link?).isSome =
      (((inputs.find? (·.1 == name)).map (·.2)).bind Input.link?).isSome from h _ _
  intro inputs
  induction inputs with
  | nil => simp
  | cons entry inputs ih =>
    intro position
    cases position with
    | zero =>
      rw [List.modify_zero_cons, List.find?_cons, List.find?_cons]
      cases entry.1 == name with
      | true => simp
      | false => rfl
    | succ position =>
      rw [List.modify_succ_cons, List.find?_cons, List.find?_cons]
      cases entry.1 == name with
      | true => rfl
      | false => exact ih position

end Node

namespace Graph

variable {graph : Graph} {consumer : String} {position : Nat} {source : Link} {relay : Node}
  {slot : UInt32}

lemma node?_insert (hfresh : ∀ node ∈ graph.nodes, node.id ≠ relay.id) (id : String) :
    (graph.insert consumer position relay slot).node? id =
      if id = relay.id then some relay
      else (graph.node? id).map fun node =>
        if node.id = consumer then node.relinked position ⟨relay.id, slot⟩ else node := by
  change ((graph.nodes.map fun node =>
    if node.id = consumer then node.relinked position ⟨relay.id, slot⟩ else node) ++
      [relay]).find? _ = _
  have hid : ((fun node : Node => node.id == id) ∘ fun node : Node =>
      if node.id = consumer then node.relinked position ⟨relay.id, slot⟩ else node) =
      fun node : Node => node.id == id := by
    funext node
    simp only [Function.comp_apply]
    split <;> rfl
  rw [List.find?_append, List.find?_map, hid]
  by_cases h : id = relay.id
  · have hnone : graph.nodes.find? (·.id == id) = none := by
      rw [List.find?_eq_none]
      intro node hnode
      simpa [h] using hfresh node hnode
    rw [hnone, if_pos h, h]
    simp
  · have hrelay : ([relay].find? fun node => node.id == id) = none := by simpa using Ne.symm h
    rw [hrelay, if_neg h, Option.or_none]
    rfl

/-- The node is no switch, and the controls of the others are as they were. -/
lemma controlsUnlinked_insert {settings : Settings} (hc : graph.ControlsUnlinked .builtin)
    (hr : relay.Relays settings) :
    (graph.insert consumer position relay slot).ControlsUnlinked .builtin := by
  intro node hn d hd switch hs
  rcases List.mem_append.mp hn with hn | hn
  · obtain ⟨original, ho, rfl⟩ := List.mem_map.mp hn
    by_cases hid : original.id = consumer
    · rw [if_pos hid] at hd ⊢
      have hcontrol : original.link? switch.control = none := hc original ho d hd switch hs
      rw [← Option.not_isSome_iff_eq_none, Node.isSome_link?_relinked, hcontrol]
      simp
    · rw [if_neg hid] at hd ⊢
      exact hc original ho d hd switch hs
  · rw [List.mem_singleton.mp hn] at hd
    rcases hr with htype | ⟨hunknown, -⟩
    · cases (get?_builtin_rerouteType htype).symm.trans hd
      cases hs
    · cases hunknown.symm.trans hd

variable (hi : graph.Insertion consumer position source relay)
include hi

lemma Insertion.source_ne : source.source ≠ relay.id := by
  obtain ⟨node, hn, name, hlinked⟩ := hi.linked
  exact hi.unlinked node (mem_of_node? hn) source
    (Node.mem_targets_of_input (List.mem_of_getElem? hlinked))

/-- Wired past the node, the graph has its old nodes besides. -/
lemma Insertion.node?_wiredPast {id : String} (hne : id ≠ relay.id) :
    ((graph.insert consumer position relay slot).wiredPast relay.id source).node? id =
      graph.node? id := by
  have hback : ∀ node ∈ graph.nodes, ∀ target ∈ node.targets,
      leadPast relay.id source target = target :=
    fun node hnode target htarget => if_neg (hi.unlinked node hnode target htarget)
  rw [wiredPast, node?_redirect, node?_insert hi.fresh, if_neg hne, Option.map_map]
  cases hn : graph.node? id with
  | none => rfl
  | some node =>
    rw [Option.map_some, Function.comp_apply]
    refine congrArg some ?_
    split
    · rename_i hconsumer
      obtain ⟨original, horiginal, name, hlinked⟩ := hi.linked
      rw [← hconsumer, id_of_node? hn, hn] at horiginal
      cases horiginal
      exact Node.redirect_relinked hlinked (if_pos rfl) (hback node (mem_of_node? hn))
    · exact Node.redirect_eq_self (hback node (mem_of_node? hn))

/-- The node does not lie upstream of another node as the graph was. -/
lemma Insertion.ne_of_upstream {start id : String} (hne : start ≠ relay.id)
    (h : graph.Upstream start id) : id ≠ relay.id := by
  induction h with
  | refl => exact hne
  | tail _ hlink _ =>
    obtain ⟨node, hn, target, htarget, rfl⟩ := hlink
    exact hi.unlinked node (mem_of_node? hn) target htarget

end Graph

end Workflow

namespace Tracing

open Workflow

variable {graph : Graph} {settings : Settings} {consumer : String} {position : Nat}
  {source : Link} {relay : Node} {slot : UInt32}

section Relays

variable {name : String} (hinputs : relay.inputs = [(name, .link source)])
include hinputs

lemma firstLink?_relay : relay.firstLink? = some ⟨name, source⟩ := by
  rw [Node.firstLink?, Node.links, hinputs]
  rfl

lemma input?_relay : relay.input? name = some (.link source) := by
  simp [Node.input?, hinputs]

lemma toInput_relay (depth : Nat) : Step.toInput relay name depth = .follow source (depth + 1) := by
  rw [Step.toInput, input?_relay hinputs]

/-- A relay has no literals, so it holds nothing under any name. -/
lemma literal?_relay (other : String) : relay.literal? other = none := by
  rw [Node.literal?, Node.input?, hinputs, List.find?_cons]
  cases name == other <;> rfl

/-- A node of unknown type is left through its only link, be that a likely one or the first. -/
lemma guess_relay (param : Param) (depth : Nat) :
    Step.guess param relay depth = .follow source (depth + 1) := by
  have halias : param.aliases.findSome? relay.literal? = none :=
    List.findSome?_eq_none_iff.mpr fun other _ => literal?_relay hinputs other
  have hlink : ∀ hint target, relay.link? hint = some target → target = source := by
    intro hint target h
    have hmem := Node.mem_targets_of_link? h
    rw [Node.targets, Node.links, hinputs] at hmem
    exact List.mem_singleton.mp hmem
  rw [Step.guess, halias]
  cases hhint : param.hints.findSome? relay.link? with
  | some target =>
    obtain ⟨hint, -, h⟩ := List.exists_of_findSome?_eq_some hhint
    simp only [hlink hint target h]
  | none =>
    simp only [firstLink?_relay hinputs, toInput_relay hinputs]

lemma offsetSeed?_relay : offsetSeed? relay = none := by
  simp [offsetSeed?, literal?_relay hinputs]

lemma through_relay {definition : Option Definition}
    (hd : definition = none ∨ definition = some (Catalogue.reroute relay.classType))
    (via : Option UInt32) (depth : Nat) :
    Step.through definition relay via depth = .follow source (depth + 1) := by
  rcases hd with rfl | rfl
  · simp only [Step.through, firstLink?_relay hinputs, Option.map_some, toInput_relay hinputs]
  · have hbypass : (Catalogue.reroute relay.classType).bypassInput? relay via = some name := by
      change relay.firstLink?.map (·.input) = some name
      rw [firstLink?_relay hinputs]
      rfl
    simp only [Step.through, hbypass, toInput_relay hinputs]

/-- Whatever is looked for and whichever output it was reached through, the node is left towards
the source of its link. -/
lemma Search.move_relay (hr : relay.Relays settings) (param : Param) (via : Option UInt32) :
    (Search.ofSettings graph .builtin settings).move param relay via = .onward source := by
  let search := Search.ofSettings graph .builtin settings
  cases hs : relay.mode.isSkipped with
  | true =>
    have hd : search.library.get? relay.classType = none ∨
        search.library.get? relay.classType = some (Catalogue.reroute relay.classType) :=
      hr.symm.imp And.left get?_builtin_rerouteType
    rw [Search.move, planFor_skipped hs, through_relay hinputs hd]
    rfl
  | false =>
    rcases hr with htype | ⟨hunknown, hasked⟩
    · have hplan : planFor search param relay via 0 =
          unruledPlan search (Catalogue.reroute relay.classType) relay via 0 :=
        planFor_unruled hs (get?_builtin_rerouteType htype) rfl
      have hunruled : unruledPlan search (Catalogue.reroute relay.classType) relay via 0 =
          .single (.through (some (Catalogue.reroute relay.classType)) relay via 0) := rfl
      rw [Search.move, hplan, hunruled, through_relay hinputs (Or.inr rfl)]
      rfl
    · have hseed : (if param = .seed then offsetSeed? relay else none) = none := by
        rw [offsetSeed?_relay hinputs, ite_self]
      have hheuristics : search.heuristics = true := hasked
      have hplan : planFor search param relay via 0 = unknownPlan search param relay 0 :=
        planFor_unknown hs hunknown
      rw [Search.move, hplan, unknownPlan, hheuristics, hseed, guess_relay hinputs]
      rfl

end Relays

/-- Nodes that are left through their only link are transparent: what is found without such a node
is found with it under a ceiling that is higher by one, and what is found with it is found without
it. The lowest ceiling is one, and one less is the same. -/
theorem foundWithin_insert (graph : Graph) (settings : Settings) (param : Param)
    (hp : param ∈ Param.onOnePath) (hc : graph.ControlsUnlinked .builtin) (consumer : String)
    (position : Nat) (source : Link) (relay : Node)
    (hi : graph.Insertion consumer position source relay) (hr : relay.Relays settings)
    (slot : UInt32) (start : String) (hne : start ≠ relay.id) (d : Nat) :
    (d < 128 → ∀ value, foundWithin graph settings param start d = some value →
      foundWithin (graph.insert consumer position relay slot) settings param start (max d 1 + 1) =
        some value) ∧
    ∀ value, foundWithin (graph.insert consumer position relay slot) settings param start d =
      some value → foundWithin graph settings param start d = some value := by
  let inserted := graph.insert consumer position relay slot
  obtain ⟨name, hinputs⟩ := hi.onlyInput
  have hc' : inserted.ControlsUnlinked .builtin := Graph.controlsUnlinked_insert hc hr
  have hrelays : ∀ ceiling, relay.Relays { settings with maxDepth := ceiling } := fun _ => hr
  have hdetours : ∀ ceiling, (Search.ofSettings inserted .builtin
      { settings with maxDepth := ceiling }).Detours param relay source := fun ceiling =>
    { found := by
        change inserted.node? relay.id = some relay
        rw [Graph.node?_insert hi.fresh, if_pos rfl]
      onward := fun _ _ _ _ _ => Search.move_relay hinputs (hrelays ceiling) param _
      source_ne := hi.source_ne }
  have hpast : foundWithin (inserted.wiredPast relay.id source) settings param start d =
      foundWithin graph settings param start d := by
    have h := run_resolve_of_upstream graph (inserted.wiredPast relay.id source) .builtin
      { settings with maxDepth := d } start param
      (fun id hid => (hi.node?_wiredPast (hi.ne_of_upstream hne hid)).symm) .empty
    exact (congrArg Prod.fst h).symm
  have h := foundWithin_of_detours hp hc' hdetours hne d
  rw [hpast] at h
  exact ⟨h.2, h.1⟩

def directSave : Node := ⟨"1", "SaveImage", none, [("images", .link ⟨"3", 0⟩)], [], .active⟩

def directSampler : Node :=
  ⟨"3", "KSampler", none, [("steps", .literal (.num (.int 20)))], [], .active⟩

/-- A sampler that a reroute may be put before. -/
def directGraph : Graph := .ofNodes [directSave, directSampler]

def insertedReroute : Node := ⟨"2", "Reroute", none, [("", .link ⟨"3", 0⟩)], [], .active⟩

lemma controlsUnlinked_directGraph : directGraph.ControlsUnlinked .builtin := by
  rw [NodeLibrary.builtin_eq_catalogues]
  decide +kernel

lemma insertion_directGraph : directGraph.Insertion "1" 0 ⟨"3", 0⟩ insertedReroute where
  linked := ⟨directSave, rfl, "images", rfl⟩
  onlyInput := ⟨"", rfl⟩
  fresh := by decide
  unlinked := by decide

lemma relays_insertedReroute (settings : Settings) : insertedReroute.Relays settings :=
  Or.inl (by decide)

/-- The sampler is where a walk ends in every graph. -/
lemma move_directSampler (graph : Graph) (settings : Settings) :
    (Search.ofSettings graph .builtin settings).move .steps directSampler (some 0) =
      .ends (some (.num (.int 20))) :=
  Search.move_held rfl rfl NodeLibrary.rule?_kSampler_steps ⟨rfl, rfl⟩

/-- A save is left towards its images in every graph. -/
lemma move_imagesOf (graph : Graph) (settings : Settings) {save : Node} {target : Link}
    (hl : save.link? "images" = some target) (hmode : save.mode = .active)
    (htype : save.classType = "SaveImage") :
    (Search.ofSettings graph .builtin settings).move .steps save none = .onward target :=
  Search.move_traced hmode htype (NodeLibrary.rule?_saveImage .steps) hl

/-- The walk without the reroute has two nodes, which fit under any ceiling. -/
lemma foundWithin_directGraph (d : Nat) :
    foundWithin directGraph {} .steps "1" d = some (.num (.int 20)) := by
  rw [foundWithin_eq_some_iff (by decide) controlsUnlinked_directGraph]
  refine ⟨[directSave, directSampler], .onward rfl (move_imagesOf _ _ rfl rfl rfl)
    (.here rfl (move_directSampler _ _)), by decide, ?_, fun k hk => ?_⟩
  · change 2 ≤ _
    omega
  · have hlt : k < 0 + 2 := lt_of_mem_countedDepths hk
    omega

theorem foundWithin_insertedReroute :
    (Param.steps ∈ Param.onOnePath ∧ directGraph.ControlsUnlinked .builtin ∧
      directGraph.Insertion "1" 0 ⟨"3", 0⟩ insertedReroute ∧ insertedReroute.Relays {} ∧
      "1" ≠ insertedReroute.id ∧ 1 < 128) ∧
    foundWithin (directGraph.insert "1" 0 insertedReroute 0) {} .steps "1" 2 =
      some (.num (.int 20)) :=
  ⟨⟨by decide, controlsUnlinked_directGraph, insertion_directGraph, relays_insertedReroute _,
      by decide, by decide⟩,
    (foundWithin_insert directGraph {} .steps (by decide) controlsUnlinked_directGraph "1" 0
      ⟨"3", 0⟩ insertedReroute insertion_directGraph (relays_insertedReroute _) 0 "1" (by decide)
      1).1 (by decide) _ (foundWithin_directGraph 1)⟩

/-- Under the ceiling zero, which counts as one, the active reroute does not fit under a ceiling
that is higher by one. -/
theorem foundWithin_insertedReroute_ceiling_zero :
    directGraph.ControlsUnlinked .builtin ∧
      directGraph.Insertion "1" 0 ⟨"3", 0⟩ insertedReroute ∧
      (insertedReroute.mode = .active ∧ insertedReroute.classType = "Reroute") ∧
      "1" ≠ insertedReroute.id ∧
      foundWithin directGraph {} .steps "1" 0 = some (.num (.int 20)) ∧
      foundWithin (directGraph.insert "1" 0 insertedReroute 0) {} .steps "1" (0 + 1) = none := by
  refine ⟨controlsUnlinked_directGraph, insertion_directGraph, ⟨rfl, rfl⟩, by decide,
    foundWithin_directGraph 0, ?_⟩
  rw [Option.eq_none_iff_forall_ne_some]
  intro value hvalue
  rw [foundWithin_eq_some_iff (by decide) (Graph.controlsUnlinked_insert
    controlsUnlinked_directGraph (relays_insertedReroute {}))] at hvalue
  obtain ⟨path, hpath, -, hlen, -⟩ := hvalue
  -- the only course goes over all three nodes
  let search := Search.ofSettings (directGraph.insert "1" 0 insertedReroute 0) .builtin
    { ({} : Settings) with maxDepth := 0 + 1 }
  have hinputs : insertedReroute.inputs = [("", .link ⟨"3", 0⟩)] := rfl
  have hreroute : search.move .steps insertedReroute (some 0) = .onward ⟨"3", 0⟩ :=
    Search.move_relay hinputs (relays_insertedReroute _) .steps (some 0)
  have hwalk : FreeWalk search .steps "1" none
      [directSave.relinked 0 ⟨"2", 0⟩, insertedReroute, directSampler] (.num (.int 20)) :=
    .onward rfl (move_imagesOf _ _ rfl rfl rfl)
      (.onward rfl hreroute (.here rfl (move_directSampler _ _)))
  rw [← hwalk.path_unique hpath] at hlen
  exact absurd hlen (by decide)

end Tracing

end ImageRecipe
