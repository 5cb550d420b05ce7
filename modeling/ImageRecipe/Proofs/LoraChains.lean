import ImageRecipe.Proofs.InsertedNodes
import ImageRecipe.Proofs.Routes
import Mathlib.Data.List.Forall2

/-!
# Chains of LoRA loaders

Between a sampler and the checkpoint the model may be changed by any number of
loaders, patches and reroutes. The facts name the LoRAs of the loaders that run,
each with its strengths and in the order in which the sampler comes upon them,
and the checkpoint behind them all. A loader that does not run adds nothing,
and reroutes do not count towards the ceiling.
-/
namespace ImageRecipe

namespace Workflow

open Tracing

/-- The types of the loaders with one LoRA each. -/
def loraLoaderTypes : List String := ["LoraLoader", "LoraLoaderModelOnly"]

/-- The types of the built-in model patches. -/
def modelPatchTypes : List String :=
  ["ModelSamplingDiscrete", "ModelSamplingSD3", "ModelSamplingAuraFlow", "ModelSamplingFlux",
    "FreeU_V2", "PerturbedAttentionGuidance", "DifferentialDiffusion"]

/-- A node changes the model that `next` leads to, by a LoRA or without one. The strength for the
text encoder of a loader that has no widget for it is that of a stray literal. -/
inductive Node.ChangesModel (node : Node) (next : Link) : Option Lora → Prop
  | loader {name : String} {strength clip : Number} (hmode : node.mode = .active)
      (htype : node.classType = "LoraLoader") (hlink : node.link? "model" = some next)
      (hname : node.Holds .builtin "lora_name" (.str name))
      (hstrength : node.Holds .builtin "strength_model" (.num strength))
      (hclip : node.Holds .builtin "strength_clip" (.num clip)) :
      node.ChangesModel next (some ⟨name, some strength.float, some clip.float⟩)
  | modelLoader {name : String} {strength : Number} (hmode : node.mode = .active)
      (htype : node.classType = "LoraLoaderModelOnly") (hlink : node.link? "model" = some next)
      (hname : node.Holds .builtin "lora_name" (.str name))
      (hstrength : node.Holds .builtin "strength_model" (.num strength)) :
      node.ChangesModel next
        (some ⟨name, some strength.float, (node.literal? "strength_clip").bind Json.looseFloat?⟩)
  | skippedLoader (hmode : node.mode ≠ .active) (htype : node.classType ∈ loraLoaderTypes)
      (hlink : node.link? "model" = some next) : node.ChangesModel next none
  | patch (hmode : node.mode = .active) (htype : node.classType ∈ modelPatchTypes)
      (hlink : node.link? "model" = some next) : node.ChangesModel next none
  | reroute {name : String} (hmode : node.mode = .active) (htype : node.classType ∈ rerouteTypes)
      (hinputs : node.inputs = [(name, .link next)]) : node.ChangesModel next none

/-- A sampler whose model comes from a checkpoint over a chain of nodes, and the save that is the
only sink of the graph around them. -/
structure Graph.LoraRun (graph : Graph) where
  save : Node
  sampler : Node
  /-- The nodes between the sampler and the checkpoint. -/
  chain : List Node
  /-- The LoRA that a node of the chain adds. -/
  added : Node → Option Lora
  checkpoint : Node
  name : String
  /-- What is saved. -/
  images : Link
  /-- The model of the sampler. -/
  model : Link
  /-- The model as it was loaded. -/
  loaded : Link
  onlySink : graph.nodes.filter (isRegisteredSink .builtin) = [save]
  saves : graph.RunsAt save.id "SaveImage" save
  savesImages : save.link? "images" = some images
  sampled : graph.RunsAt images.source "KSampler" sampler
  samplesModel : sampler.link? "model" = some model
  changed : graph.Chain
    (fun first node next => first.slot = 0 ∧ node.ChangesModel next (added node)) model chain loaded
  distinct : (chain.map Node.id).Nodup
  loads : graph.RunsAt loaded.source "CheckpointLoaderSimple" checkpoint
  checkpointName : checkpoint.Holds .builtin "ckpt_name" (.str name)

/-- The nodes of the chain that take a search deeper. -/
def Graph.LoraRun.counted {graph : Graph} (run : graph.LoraRun) : List Node :=
  run.chain.filter fun node => node.classType ∉ rerouteTypes

/-- The LoRAs of a chain, without a strength for the text encoder where the loader's class has no
widget for it. -/
def Graph.LoraRun.declaredLoras {graph : Graph} (run : graph.LoraRun) : List Lora :=
  run.chain.filterMap fun node =>
    (run.added node).map fun lora =>
      if node.classType = "LoraLoaderModelOnly" then { lora with clipStrength := none } else lora

end Workflow

namespace NodeLibrary

lemma get?_builtin_loraLoader : builtin.get? "LoraLoader" = some Catalogue.loraLoader :=
  get?_builtin_of_mem (d := Catalogue.loraLoader) (by simp [catalogues, Catalogue.models])

lemma get?_builtin_loraLoaderModelOnly :
    builtin.get? "LoraLoaderModelOnly" = some Catalogue.loraLoaderModelOnly :=
  get?_builtin_of_mem (d := Catalogue.loraLoaderModelOnly) (by simp [catalogues, Catalogue.models])

end NodeLibrary

namespace Tracing

open Workflow

variable {search : Search} {node : Node} {next : Link} {added : Option Lora}
  {slot : Option UInt32} {depth : Nat}

/-- The description of a loader lets the model through from its first output. -/
lemma exists_loraLoader {classType : String} (h : classType ∈ loraLoaderTypes) :
    ∃ d, NodeLibrary.builtin.get? classType = some d ∧
      d.rule? .lora = some (.widget "lora_name" true) ∧ d.rule? .model = some (.trace "model") ∧
      d.passThroughFor? (some 0) = some ⟨some "model", some 0⟩ := by
  rcases List.mem_pair.mp h with rfl | rfl
  · exact ⟨_, NodeLibrary.get?_builtin_loraLoader, rfl, rfl, rfl⟩
  · exact ⟨_, NodeLibrary.get?_builtin_loraLoaderModelOnly, rfl, rfl, rfl⟩

lemma rule?_modelPatch {classType : String} (h : classType ∈ modelPatchTypes) {param : Param}
    (hp : param ∈ [Param.model, Param.lora]) :
    NodeLibrary.builtin.rule? classType param = some (.trace "model") := by
  have hall : ∀ classType ∈ modelPatchTypes, ∀ param ∈ [Param.model, Param.lora],
      NodeLibrary.builtin.rule? classType param = some (.trace "model") := by
    rw [NodeLibrary.builtin_eq_catalogues]
    decide +kernel
  exact hall classType h param hp

/-- A linked input that is declared for an output stands in for it. -/
lemma through_declared {d : Definition} {name : String} {declared : Option UInt32} {target : Link}
    (hd : d.passThroughFor? slot = some ⟨some name, declared⟩)
    (hl : node.link? name = some target) :
    Step.through (some d) node slot depth = .follow target (depth + 1) := by
  have hbypass : d.bypassInput? node slot = some name := by
    rw [Definition.bypassInput?, hd]
    simp [hl]
  simp only [Step.through, hbypass, toInput_eq_follow hl]

/-- A reroute that runs sends a search on at the depth at which it was reached, if something was
followed before. -/
lemma planFor_reroute (hlib : search.library = .builtin) (hmode : node.mode = .active)
    (htype : node.classType ∈ rerouteTypes) {name : String}
    (hinputs : node.inputs = [(name, .link next)]) (param : Param) (hpos : 1 ≤ depth) :
    planFor search param node slot depth = .onward none next depth := by
  have hd : search.library.get? node.classType = some (Catalogue.reroute node.classType) :=
    hlib ▸ get?_builtin_rerouteType htype
  have hunruled : unruledPlan search (Catalogue.reroute node.classType) node slot depth =
      .single (.through (some (Catalogue.reroute node.classType)) node slot (depth - 1)) := rfl
  rw [planFor_unruled (by rw [hmode]; rfl) hd rfl, hunruled,
    through_relay hinputs (Or.inr rfl), Nat.sub_add_cancel hpos, Plan.onward]

/-- By how much a node of the chain takes a search deeper. -/
def chainCost (node : Node) : Nat := if node.classType ∈ rerouteTypes then 0 else 1

lemma chainCost_of_not_mem (h : node.classType ∉ rerouteTypes) : chainCost node = 1 := if_neg h

lemma not_mem_rerouteTypes_of_loader (h : node.classType ∈ loraLoaderTypes) :
    node.classType ∉ rerouteTypes := by
  have hall : ∀ classType ∈ loraLoaderTypes, classType ∉ rerouteTypes := by decide
  exact hall _ h

lemma not_mem_rerouteTypes_of_patch (h : node.classType ∈ modelPatchTypes) :
    node.classType ∉ rerouteTypes := by
  have hall : ∀ classType ∈ modelPatchTypes, classType ∉ rerouteTypes := by decide
  exact hall _ h

/-- What a loader that runs does: it notes the name of its LoRA, or it is left for the model. -/
lemma planFor_loader (hlib : search.library = .builtin) (hmode : node.mode = .active)
    (htype : node.classType ∈ loraLoaderTypes) (hlink : node.link? "model" = some next)
    {value : Json} (hname : node.Holds .builtin "lora_name" value) :
    planFor search .lora node (some 0) depth = .onward (some value) next (depth + 1) ∧
      planFor search .model node (some 0) depth = .onward none next (depth + 1) := by
  obtain ⟨d, hd, hlora, hmodel, hdeclared⟩ := exists_loraLoader htype
  rw [← hlib] at hd hname
  have hactive : node.mode.isSkipped = false := by rw [hmode]; rfl
  constructor
  · rw [planFor_ruled hactive hd hlora, rulePlan, toWidget_of_holds hname,
      through_declared hdeclared hlink, Plan.onward]
  · rw [planFor_ruled hactive hd hmodel, rulePlan, toInput_eq_follow hlink, Plan.onward]

lemma planFor_skippedLoader (hlib : search.library = .builtin) (hmode : node.mode ≠ .active)
    (htype : node.classType ∈ loraLoaderTypes) (hlink : node.link? "model" = some next)
    (param : Param) :
    planFor search param node (some 0) depth = .onward none next (depth + 1) := by
  obtain ⟨d, hd, -, -, hdeclared⟩ := exists_loraLoader htype
  rw [← hlib] at hd
  rw [planFor_skipped (by simpa [Mode.isSkipped] using hmode), hd,
    through_declared hdeclared hlink, Plan.onward]

/-- From a node of the chain a search for LoRAs notes the name of what the node adds, a search for
the checkpoint notes nothing, and both go on with the model. -/
lemma planFor_of_changesModel (hlib : search.library = .builtin)
    (h : node.ChangesModel next added) (hpos : 1 ≤ depth) :
    planFor search .lora node (some 0) depth =
        .onward (added.map (Json.str ·.name)) next (depth + chainCost node) ∧
      planFor search .model node (some 0) depth =
        .onward none next (depth + chainCost node) := by
  cases h with
  | loader hmode htype hlink hname _ _ =>
    have hmem : node.classType ∈ loraLoaderTypes := by simp [loraLoaderTypes, htype]
    rw [chainCost_of_not_mem (not_mem_rerouteTypes_of_loader hmem)]
    exact planFor_loader hlib hmode hmem hlink hname
  | modelLoader hmode htype hlink hname _ =>
    have hmem : node.classType ∈ loraLoaderTypes := by simp [loraLoaderTypes, htype]
    rw [chainCost_of_not_mem (not_mem_rerouteTypes_of_loader hmem)]
    exact planFor_loader hlib hmode hmem hlink hname
  | skippedLoader hmode htype hlink =>
    rw [chainCost_of_not_mem (not_mem_rerouteTypes_of_loader htype)]
    exact ⟨planFor_skippedLoader hlib hmode htype hlink .lora,
      planFor_skippedLoader hlib hmode htype hlink .model⟩
  | patch hmode htype hlink =>
    rw [chainCost_of_not_mem (not_mem_rerouteTypes_of_patch htype)]
    exact ⟨planFor_traced hmode rfl (hlib ▸ rule?_modelPatch htype (by decide)) hlink,
      planFor_traced hmode rfl (hlib ▸ rule?_modelPatch htype (by decide)) hlink⟩
  | reroute hmode htype hinputs =>
    rw [chainCost, if_pos htype]
    exact ⟨planFor_reroute hlib hmode htype hinputs .lora hpos,
      planFor_reroute hlib hmode htype hinputs .model hpos⟩

/-- The name that is noted at a node is read as the LoRA that the node adds. -/
lemma lora?_of_changesModel (hlib : search.library = .builtin)
    (hn : search.graph.node? node.id = some node) (h : node.ChangesModel next added) :
    ((added.map (Json.str ·.name)).map (node.id, ·)).bind (lora? search) = added := by
  cases h with
  | loader _ _ _ _ hstrength hclip =>
    change loraOfLoader? search node.id _ = _
    simp [loraOfLoader?, hn, hlib, textValue?, hstrength.own, hclip.own, Json.looseFloat?]
  | modelLoader _ htype _ _ hstrength =>
    have hclip : ownValue? .builtin node "strength_clip" = node.literal? "strength_clip" := by
      have hpositional : positional? .builtin node "strength_clip" = none := by
        rw [positional?, htype, NodeLibrary.get?_builtin_loraLoaderModelOnly]
        rfl
      rw [ownValue?, hpositional]
      cases node.literal? "strength_clip" <;> rfl
    change loraOfLoader? search node.id _ = _
    simp [loraOfLoader?, hn, hlib, textValue?, hstrength.own, hclip, Json.looseFloat?]
  | skippedLoader _ _ _ => rfl
  | patch _ _ _ => rfl
  | reroute _ _ _ => rfl

/-- A chain takes a search as much deeper as it has nodes that are no reroutes. -/
lemma sum_chainCost (nodes : List Node) :
    (nodes.map chainCost).sum =
      (nodes.filter fun node => node.classType ∉ rerouteTypes).length := by
  induction nodes with
  | nil => rfl
  | cons node nodes ih =>
    rw [List.map_cons, List.sum_cons, ih, List.filter_cons, chainCost]
    by_cases h : node.classType ∈ rerouteTypes
    · simp [h]
    · simp [h, Nat.add_comm]

end Tracing

namespace Workflow.Graph.LoraRun

open Tracing

variable {graph : Graph} (run : graph.LoraRun) {settings : Settings} {param : Param}
include run

/-- The types of the nodes of a chain. -/
lemma classType_of_mem {node : Node} (h : node ∈ run.chain) :
    node.classType ∈ loraLoaderTypes ++ modelPatchTypes ++ rerouteTypes := by
  obtain ⟨_, next, -, hchanges⟩ := run.changed.leads_of_mem h
  rw [List.mem_append, List.mem_append]
  generalize run.added node = added at hchanges
  cases hchanges with
  | loader _ htype _ _ _ _ => exact .inl (.inl (by simp [loraLoaderTypes, htype]))
  | modelLoader _ htype _ _ _ => exact .inl (.inl (by simp [loraLoaderTypes, htype]))
  | skippedLoader _ htype _ => exact .inl (.inl htype)
  | patch _ htype _ => exact .inl (.inr htype)
  | reroute _ htype _ => exact .inr htype

/-- The nodes from the save to the checkpoint. -/
def path : List String :=
  [run.save.id, run.images.source] ++ (run.chain.map Node.id ++ [run.loaded.source])

/-- They are different, since the nodes around the chain have types of their own. -/
lemma nodup_path : run.path.Nodup := by
  have hothers : List.Forall₂ graph.HasType
      ([run.save.id, run.images.source] ++ [run.loaded.source])
      ["SaveImage", "KSampler", "CheckpointLoaderSimple"] :=
    .cons run.saves.hasType (.cons run.sampled.hasType (.cons run.loads.hasType .nil))
  exact run.changed.nodup run.distinct (fun _ => run.classType_of_mem) hothers (by decide)
    (by decide)

lemma length_path : run.path.length = run.chain.length + 3 := by
  simp [path]

section Ceilings

variable (hceiling : run.counted.length + 2 ≤ settings.maxDepth)
  (hlength : run.chain.length + 3 ≤ 2 * settings.maxDepth) (hle : settings.maxDepth ≤ 128)
include hceiling hlength hle

/-- A search that is sent along the chain finds what it finds at the checkpoint, and what is noted
at the nodes of the chain is gathered. -/
lemma run_resolve {noted : Node → Option Json} {answer : Option Json}
    (hsampler : NodeLibrary.builtin.rule? "KSampler" param = some (.trace "model"))
    (hchain : ∀ node next depth, node.ChangesModel next (run.added node) → 1 ≤ depth →
      planFor (.ofSettings graph .builtin settings) param node (some 0) depth =
        .onward (noted node) next (depth + chainCost node))
    (hcheckpoint : ∀ slot depth,
      planFor (.ofSettings graph .builtin settings) param run.checkpoint slot depth =
        .single (.answer answer)) :
    ((Search.ofSettings graph .builtin settings).resolve run.save.id param).run .empty =
      (answer, ⟨run.path.reverse,
        run.chain.filterMap fun node => (noted node).map (node.id, ·)⟩) := by
  let search := Search.ofSettings graph .builtin settings
  have hmax : search.maxDepth = settings.maxDepth := by
    rw [Search.maxDepth_ofSettings, Fault.depthLimit]
    omega
  have hdepth : 2 + (run.chain.map chainCost).sum ≤ search.maxDepth := by
    rw [sum_chainCost, hmax]
    exact Nat.add_comm 2 _ ▸ hceiling
  have hleads : ∀ (first : Link) (node : Node) (next : Link) (depth : Nat),
      first.slot = 0 ∧ node.ChangesModel next (run.added node) → 1 ≤ depth →
      planFor search param node (some first.slot) depth =
        .onward (noted node) next (depth + chainCost node) := by
    rintro first node next depth ⟨hslot, hchanges⟩ hpos
    rw [hslot]
    exact hchain node next depth hchanges hpos
  have hbehind : search.Route param run.model.source (some run.model.slot) 2
      (run.chain.map Node.id ++ [run.loaded.source])
      (run.chain.filterMap (fun node => (noted node).map (node.id, ·)) ++ []) answer :=
    Search.Route.of_chain hleads run.changed (Nat.le_succ 1)
      (.ends run.loads.found hdepth (hcheckpoint _ _))
  rw [List.append_nil] at hbehind
  have hsave : planFor search param run.save none 0 = .onward none run.images 1 :=
    planFor_traced run.saves.runs run.saves.isOfType (NodeLibrary.rule?_saveImage param)
      run.savesImages
  have hsampled : planFor search param run.sampler (some run.images.slot) 1 =
      .onward none run.model 2 :=
    planFor_traced run.sampled.runs run.sampled.isOfType hsampler run.samplesModel
  have hroute : search.Route param run.save.id none 0 run.path
      (run.chain.filterMap fun node => (noted node).map (node.id, ·)) answer :=
    .onward run.saves.found (Nat.zero_le _) hsave
      (.onward run.sampled.found (by omega) hsampled hbehind)
  refine hroute.run_resolve run.nodup_path ?_
  rw [run.length_path, Search.maxPath, hmax]
  exact hlength

/-- The LoRAs of the workflow are those that the nodes of the chain add. -/
lemma loras_facts :
    (graph.facts .builtin settings).loras = run.chain.filterMap run.added := by
  let search := Search.ofSettings graph .builtin settings
  have hlib : search.library = NodeLibrary.builtin := rfl
  have hsampler : NodeLibrary.builtin.rule? "KSampler" .lora = some (.trace "model") :=
    NodeLibrary.rule?_builtin (by decide +kernel)
  have hrun := run.run_resolve hceiling hlength hle hsampler
    (fun _ _ _ hchanges hpos => (planFor_of_changesModel hlib hchanges hpos).1)
    (fun _ _ => planFor_deadEnd run.loads.runs run.loads.isOfType
      NodeLibrary.get?_builtin_checkpointLoader rfl rfl rfl)
  rw [facts_of_single run.save (sinks_of_single run.onlySink)]
  change ((search.resolve run.save.id .lora).run .empty).2.gathered.filterMap (lora? search) = _
  rw [hrun, List.filterMap_filterMap]
  refine List.filterMap_congr fun node hnode => ?_
  obtain ⟨_, next, -, hchanges⟩ := run.changed.leads_of_mem hnode
  exact lora?_of_changesModel hlib (run.changed.node?_of_mem hnode) hchanges

/-- The base model of the workflow is the checkpoint. -/
lemma baseModel_facts : (graph.facts .builtin settings).baseModel = some run.name := by
  let search := Search.ofSettings graph .builtin settings
  have hlib : search.library = NodeLibrary.builtin := rfl
  have hsampler : NodeLibrary.builtin.rule? "KSampler" .model = some (.trace "model") :=
    NodeLibrary.rule?_builtin (by decide +kernel)
  have hcheckpoint : NodeLibrary.builtin.rule? "CheckpointLoaderSimple" .model =
      some (.widget "ckpt_name" false) := NodeLibrary.rule?_builtin (by decide +kernel)
  have hrun := run.run_resolve hceiling hlength hle hsampler
    (fun _ _ _ hchanges hpos => (planFor_of_changesModel hlib hchanges hpos).2)
    (fun _ _ => planFor_held run.loads.runs run.loads.isOfType hcheckpoint run.checkpointName)
  rw [facts_of_single run.save (sinks_of_single run.onlySink)]
  change ((search.resolve run.save.id .model).run .empty).1.bind textValue? = _
  rw [hrun]
  rfl

end Ceilings

end Workflow.Graph.LoraRun

namespace Tracing

open Workflow

/-- The LoRAs of a workflow are those that the nodes between its sampler and its checkpoint add,
in this order, and its base model is the checkpoint, as far away as the ceiling allows. -/
theorem facts_loraRun (graph : Graph) (settings : Settings) (run : graph.LoraRun)
    (hceiling : run.counted.length + 2 ≤ settings.maxDepth)
    (hlength : run.chain.length + 3 ≤ 2 * settings.maxDepth) (hle : settings.maxDepth ≤ 128) :
    (graph.facts .builtin settings).loras = run.chain.filterMap run.added ∧
      (graph.facts .builtin settings).baseModel = some run.name :=
  ⟨run.loras_facts hceiling hlength hle, run.baseModel_facts hceiling hlength hle⟩

def stackedSave : Node := ⟨"9", "SaveImage", none, [("images", .link ⟨"3", 0⟩)], [], .active⟩

def stackedSampler : Node := ⟨"3", "KSampler", none, [("model", .link ⟨"14", 0⟩)], [], .active⟩

def stackedReroute : Node := ⟨"14", "Reroute", none, [("", .link ⟨"13", 0⟩)], [], .active⟩

/-- The values of this loader are positional. -/
def stackedLoader : Node :=
  ⟨"13", "LoraLoader", none, [("model", .link ⟨"12", 0⟩), ("clip", .link ⟨"4", 1⟩)],
    [.str "outlines", .num (.int 1), .num (.int 2)], .active⟩

def stackedPatch : Node :=
  ⟨"12", "FreeU_V2", none, [("model", .link ⟨"11", 0⟩)], [], .active⟩

def stackedMuted : Node :=
  ⟨"11", "LoraLoader", none,
    [("model", .link ⟨"10", 0⟩), ("lora_name", .literal (.str "unused"))], [], .muted⟩

def stackedModelLoader : Node :=
  ⟨"10", "LoraLoaderModelOnly", none,
    [("model", .link ⟨"4", 0⟩), ("lora_name", .literal (.str "colours")),
      ("strength_model", .literal (.num (.int 3)))], [], .active⟩

def stackedCheckpoint : Node :=
  ⟨"4", "CheckpointLoaderSimple", none, [("ckpt_name", .literal (.str "dreamy"))], [], .active⟩

/-- A run with one node of each kind. -/
def stackedGraph : Graph :=
  .ofNodes [stackedCheckpoint, stackedModelLoader, stackedMuted, stackedPatch, stackedLoader,
    stackedReroute, stackedSampler, stackedSave]

def stackedLora (node : Node) : Option Lora :=
  if node.id = "13" then some ⟨"outlines", some (Number.int 1).float, some (Number.int 2).float⟩
  else if node.id = "10" then some ⟨"colours", some (Number.int 3).float, none⟩
  else none

lemma changesModel_stackedLoader :
    stackedLoader.ChangesModel ⟨"12", 0⟩ (stackedLora stackedLoader) := by
  have hget := NodeLibrary.get?_builtin_loraLoader
  have hname : ownValue? .builtin stackedLoader "lora_name" = some (.str "outlines") := by
    simp only [ownValue?, positional?, stackedLoader, hget]
    rfl
  have hstrength : ownValue? .builtin stackedLoader "strength_model" = some (.num (.int 1)) := by
    simp only [ownValue?, positional?, stackedLoader, hget]
    rfl
  have hclip : ownValue? .builtin stackedLoader "strength_clip" = some (.num (.int 2)) := by
    simp only [ownValue?, positional?, stackedLoader, hget]
    rfl
  exact .loader rfl rfl rfl ⟨rfl, hname⟩ ⟨rfl, hstrength⟩ ⟨rfl, hclip⟩

def stackedRun : stackedGraph.LoraRun where
  save := stackedSave
  sampler := stackedSampler
  chain := [stackedReroute, stackedLoader, stackedPatch, stackedMuted, stackedModelLoader]
  added := stackedLora
  checkpoint := stackedCheckpoint
  name := "dreamy"
  images := ⟨"3", 0⟩
  model := ⟨"14", 0⟩
  loaded := ⟨"4", 0⟩
  onlySink := by
    rw [NodeLibrary.builtin_eq_catalogues]
    rfl
  saves := ⟨rfl, rfl, rfl⟩
  savesImages := rfl
  sampled := ⟨rfl, rfl, rfl⟩
  samplesModel := rfl
  changed :=
    .cons rfl ⟨rfl, .reroute rfl (by decide) rfl⟩ <|
    .cons rfl ⟨rfl, changesModel_stackedLoader⟩ <|
    .cons rfl ⟨rfl, .patch rfl (by decide) rfl⟩ <|
    .cons rfl ⟨rfl, .skippedLoader (by decide) (by decide) rfl⟩ <|
    .cons rfl ⟨rfl, .modelLoader rfl rfl rfl ⟨rfl, rfl⟩ ⟨rfl, rfl⟩⟩ .nil
  distinct := by decide
  loads := ⟨rfl, rfl, rfl⟩
  checkpointName := ⟨rfl, rfl⟩

/-- The ceiling is as low as it may be. -/
theorem facts_loraRun_stackedGraph :
    (stackedRun.counted.length + 2 ≤ 6 ∧ stackedRun.chain.length + 3 ≤ 2 * 6 ∧ 6 ≤ 128) ∧
      (stackedGraph.facts .builtin { ({} : Settings) with maxDepth := 6 }).loras =
        [⟨"outlines", some (Number.int 1).float, some (Number.int 2).float⟩,
          ⟨"colours", some (Number.int 3).float, none⟩] ∧
      (stackedGraph.facts .builtin { ({} : Settings) with maxDepth := 6 }).baseModel =
        some "dreamy" :=
  ⟨by decide, facts_loraRun stackedGraph _ stackedRun (by decide) (by decide) (by decide)⟩

def strayLoader : Node :=
  ⟨"2", "LoraLoaderModelOnly", none,
    [("model", .link ⟨"1", 0⟩), ("lora_name", .literal (.str "colours")),
      ("strength_model", .literal (.num (.int 1))), ("strength_clip", .literal (.num (.int 2)))],
    [], .active⟩

def strayCheckpoint : Node :=
  ⟨"1", "CheckpointLoaderSimple", none, [("ckpt_name", .literal (.str "dreamy"))], [], .active⟩

def straySampler : Node := ⟨"3", "KSampler", none, [("model", .link ⟨"2", 0⟩)], [], .active⟩

/-- A run with a literal that the class of the loader has no widget for. -/
def strayGraph : Graph := .ofNodes [strayCheckpoint, strayLoader, straySampler, stackedSave]

def strayRun : strayGraph.LoraRun where
  save := stackedSave
  sampler := straySampler
  chain := [strayLoader]
  added _ := some ⟨"colours", some (Number.int 1).float, some (Number.int 2).float⟩
  checkpoint := strayCheckpoint
  name := "dreamy"
  images := ⟨"3", 0⟩
  model := ⟨"2", 0⟩
  loaded := ⟨"1", 0⟩
  onlySink := by
    rw [NodeLibrary.builtin_eq_catalogues]
    rfl
  saves := ⟨rfl, rfl, rfl⟩
  savesImages := rfl
  sampled := ⟨rfl, rfl, rfl⟩
  samplesModel := rfl
  changed := .cons rfl ⟨rfl, .modelLoader rfl rfl rfl ⟨rfl, rfl⟩ ⟨rfl, rfl⟩⟩ .nil
  distinct := by decide
  loads := ⟨rfl, rfl, rfl⟩
  checkpointName := ⟨rfl, rfl⟩

/-- A loader for the model alone is read with a strength for the text encoder if it has a literal of
that name, though its class has no widget for it. -/
theorem loras_strayGraph_ne_declared :
    ¬ ∀ (graph : Graph) (settings : Settings) (run : graph.LoraRun),
      run.counted.length + 2 ≤ settings.maxDepth →
      run.chain.length + 3 ≤ 2 * settings.maxDepth → settings.maxDepth ≤ 128 →
      (graph.facts .builtin settings).loras = run.declaredLoras := by
  intro h
  have hdeclared := h strayGraph {} strayRun (by decide) (by decide) (by decide)
  have hread : (strayGraph.facts .builtin {}).loras = strayRun.chain.filterMap strayRun.added :=
    strayRun.loras_facts (by decide) (by decide) (by decide)
  rw [hread] at hdeclared
  have hclip := congrArg (List.map Lora.clipStrength) hdeclared
  cases hclip

end Tracing

end ImageRecipe
