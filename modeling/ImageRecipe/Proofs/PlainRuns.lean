import ImageRecipe.Proofs.Routes
import ImageRecipe.Proofs.WholeFloats
import Mathlib.Data.List.Forall2

/-!
# Plain text-to-image workflows

A plain workflow makes a latent into an image with one sampler and saves it,
over any number of nodes that decode it or work on the image. Whatever else is
in the graph, its facts are the literals that stand at the sampler and at the
nodes right behind the sampler, up to the greatest distance that the ceiling
allows.
-/
namespace ImageRecipe

namespace Workflow

open Tracing

def decoderTypes : List String := ["VAEDecode", "VAEDecodeTiled"]

def operationTypes : List String :=
  ["ImageScale", "ImageScaleBy", "ImageSharpen", "ImageUpscaleWithModel"]

/-- A node that runs makes an image from what `next` leads to: it decodes it or works on it. -/
inductive Node.WorksOn (node : Node) (next : Link) : Prop
  | decoder (hmode : node.mode = .active) (htype : node.classType ∈ decoderTypes)
      (hlink : node.link? "samples" = some next)
  | operation (hmode : node.mode = .active) (htype : node.classType ∈ operationTypes)
      (hlink : node.link? "image" = some next)

/-- The literals of a plain workflow. -/
structure PlainLiterals where
  positive : String
  negative : String
  checkpoint : String
  seed : UInt64
  steps : UInt32
  cfg : Number
  samplerName : String
  scheduler : String
  denoise : Number
  width : UInt32
  height : UInt32

/-- What the literals say, with the name of a separate VAE. -/
def PlainLiterals.facts (literals : PlainLiterals) (vae : Option String) : Facts where
  positivePrompt := some literals.positive
  negativePrompt := some literals.negative
  baseModel := some literals.checkpoint
  vae := vae
  seed := some literals.seed
  steps := some literals.steps
  cfg := some literals.cfg.float
  samplerName := some literals.samplerName
  scheduler := some literals.scheduler
  denoise := some literals.denoise.float
  width := some literals.width
  height := some literals.height

namespace Graph

/-- An input is linked to a node of the given type that runs. -/
def Feeds (graph : Graph) (node : Node) (input classType : String) (source : Node) : Prop :=
  ∃ link, node.link? input = some link ∧ graph.RunsAt link.source classType source

/-- A plain text-to-image workflow within a graph whose only sink is its save. -/
structure PlainRun (graph : Graph) where
  literals : PlainLiterals
  save : Node
  /-- The nodes between the save and the sampler. -/
  chain : List Node
  sampler : Node
  positive : Node
  negative : Node
  checkpoint : Node
  latent : Node
  /-- What is saved. -/
  images : Link
  /-- What the sampler makes. -/
  samples : Link
  onlySink : graph.nodes.filter (isRegisteredSink .builtin) = [save]
  saves : graph.RunsAt save.id "SaveImage" save
  savesImages : save.link? "images" = some images
  made : graph.Chain (fun _ => Node.WorksOn) images chain samples
  distinct : (chain.map Node.id).Nodup
  sampled : graph.RunsAt samples.source "KSampler" sampler
  seed : sampler.Holds .builtin "seed" (.num (.int literals.seed.toNat))
  steps : sampler.Holds .builtin "steps" (.num (.int literals.steps.toNat))
  cfg : sampler.Holds .builtin "cfg" (.num literals.cfg)
  samplerName : sampler.Holds .builtin "sampler_name" (.str literals.samplerName)
  scheduler : sampler.Holds .builtin "scheduler" (.str literals.scheduler)
  denoise : sampler.Holds .builtin "denoise" (.num literals.denoise)
  encodesPositive : graph.Feeds sampler "positive" "CLIPTextEncode" positive
  positiveText : positive.Holds .builtin "text" (.str literals.positive)
  encodesNegative : graph.Feeds sampler "negative" "CLIPTextEncode" negative
  negativeText : negative.Holds .builtin "text" (.str literals.negative)
  loads : graph.Feeds sampler "model" "CheckpointLoaderSimple" checkpoint
  checkpointName : checkpoint.Holds .builtin "ckpt_name" (.str literals.checkpoint)
  begins : graph.Feeds sampler "latent_image" "EmptyLatentImage" latent
  width : latent.Holds .builtin "width" (.num (.int literals.width.toNat))
  height : latent.Holds .builtin "height" (.num (.int literals.height.toNat))

end Graph

end Workflow

namespace Tracing

open Workflow

lemma rule?_decoder {classType : String} (h : classType ∈ decoderTypes) {param : Param}
    (hp : param ≠ .vae) : NodeLibrary.builtin.rule? classType param = some (.trace "samples") := by
  have hall : ∀ classType ∈ decoderTypes, ∀ param ∈ Param.all, param ≠ .vae →
      NodeLibrary.builtin.rule? classType param = some (.trace "samples") := by
    rw [NodeLibrary.builtin_eq_catalogues]
    decide +kernel
  exact hall classType h param (Param.mem_all param) hp

lemma rule?_operation {classType : String} (h : classType ∈ operationTypes) (param : Param) :
    NodeLibrary.builtin.rule? classType param = some (.trace "image") := by
  have hall : ∀ classType ∈ operationTypes, ∀ param ∈ Param.all,
      NodeLibrary.builtin.rule? classType param = some (.trace "image") := by
    rw [NodeLibrary.builtin_eq_catalogues]
    decide +kernel
  exact hall classType h param (Param.mem_all param)

/-- Whatever is looked for but a separate VAE is looked for behind the image or the latent. -/
lemma planFor_worksOn {search : Search} (hlib : search.library = .builtin) {param : Param}
    (hp : param ≠ .vae) {node : Node} {next : Link} (h : node.WorksOn next)
    (slot : Option UInt32) (depth : Nat) :
    planFor search param node slot depth = .onward none next (depth + 1) := by
  cases h with
  | decoder hmode htype hlink =>
    exact planFor_traced hmode rfl (hlib ▸ rule?_decoder htype hp) hlink
  | operation hmode htype hlink =>
    exact planFor_traced hmode rfl (hlib ▸ rule?_operation htype param) hlink

end Tracing

namespace Workflow.Graph.PlainRun

open Tracing

variable {graph : Graph} (run : graph.PlainRun) {settings : Settings} {param : Param}
include run

lemma classType_of_mem {node : Node} (h : node ∈ run.chain) :
    node.classType ∈ decoderTypes ++ operationTypes := by
  obtain ⟨_, next, hworks⟩ := run.made.leads_of_mem h
  cases hworks with
  | decoder _ htype _ => exact List.mem_append_left _ htype
  | operation _ htype _ => exact List.mem_append_right _ htype

/-- What lies behind the sampler's link lies behind the save. -/
lemma route (hp : param ≠ .vae) {path : List String} {gathered : List (String × Json)}
    {value : Option Json}
    (hr : (Search.ofSettings graph .builtin settings).Route param run.samples.source
      (some run.samples.slot) (1 + run.chain.length) path gathered value) :
    (Search.ofSettings graph .builtin settings).Route param run.save.id none 0
      (run.save.id :: (run.chain.map Node.id ++ path)) gathered value := by
  let search := Search.ofSettings graph .builtin settings
  have hlib : search.library = NodeLibrary.builtin := rfl
  have hsum : (run.chain.map fun _ => 1).sum = run.chain.length := by simp
  rw [← hsum] at hr
  have hleads : ∀ (first : Link) (node : Node) (next : Link) (depth : Nat), node.WorksOn next →
      1 ≤ depth → planFor search param node (some first.slot) depth =
        .onward none next (depth + 1) :=
    fun first _ _ depth hworks _ => planFor_worksOn hlib hp hworks (some first.slot) depth
  have hchain : search.Route param run.images.source (some run.images.slot) 1
      (run.chain.map Node.id ++ path)
      (run.chain.filterMap (fun node => (none : Option Json).map (node.id, ·)) ++ gathered) value :=
    Search.Route.of_chain hleads run.made (Nat.le_refl 1) hr
  have hnone : run.chain.filterMap (fun node => (none : Option Json).map (node.id, ·)) = [] := by
    simp
  rw [hnone] at hchain
  have hplan : planFor search param run.save none 0 = .onward none run.images 1 :=
    planFor_traced run.saves.runs run.saves.isOfType (NodeLibrary.rule?_saveImage param)
      run.savesImages
  exact Search.Route.onward run.saves.found (Nat.zero_le _) hplan hchain

section Ceilings

variable (hceiling : run.chain.length + 2 ≤ settings.maxDepth) (hle : settings.maxDepth ≤ 128)
include hceiling hle

lemma le_maxDepth :
    run.chain.length + 2 ≤ (Search.ofSettings graph .builtin settings).maxDepth := by
  rw [Search.maxDepth_ofSettings, Fault.depthLimit]
  omega

/-- A search from the save finds what lies behind the sampler's link, and gathers nothing, if the
types of the nodes there are all different. -/
lemma run_resolve (hp : param ≠ .vae) {rest others : List String} {answer : Option Json}
    (hr : (Search.ofSettings graph .builtin settings).Route param run.samples.source
      (some run.samples.slot) (1 + run.chain.length) rest [] answer)
    (hothers : List.Forall₂ graph.HasType rest others) (hlen : others.length ≤ 2)
    (hnodup : ("SaveImage" :: others).Nodup)
    (hapart : ∀ classType ∈ others, classType ∉ decoderTypes ++ operationTypes) :
    ∃ visited, ((Search.ofSettings graph .builtin settings).resolve run.save.id param).run .empty =
      (answer, ⟨visited, []⟩) := by
  have hall : List.Forall₂ graph.HasType ([run.save.id] ++ rest) ("SaveImage" :: others) :=
    .cons run.saves.hasType hothers
  have hapart' : ∀ classType ∈ "SaveImage" :: others,
      classType ∉ decoderTypes ++ operationTypes :=
    List.forall_mem_cons.mpr ⟨by decide, hapart⟩
  have hdistinct := run.made.nodup run.distinct (fun _ => run.classType_of_mem) hall hnodup hapart'
  have hpath : (run.save.id :: (run.chain.map Node.id ++ rest)).length ≤
      (Search.ofSettings graph .builtin settings).maxPath := by
    have hmax := run.le_maxDepth hceiling hle
    rw [Search.maxPath, List.length_cons, List.length_append, List.length_map, hothers.length_eq]
    omega
  exact ⟨_, (run.route hp hr).run_resolve hdistinct hpath⟩

/-- A parameter in a widget of the sampler. -/
lemma read_at_sampler (hp : param ≠ .vae) {name : String} {value : Json}
    (hr : NodeLibrary.rule? ⟨NodeLibrary.catalogues⟩ "KSampler" param = some (.widget name false))
    (hh : run.sampler.Holds .builtin name value) {α : Type} {read : Json → Option α} {a : α}
    (hread : read value = some a) :
    (((Search.ofSettings graph .builtin settings).resolve run.save.id param).run .empty).1.bind
      read = some a := by
  let search := Search.ofSettings graph .builtin settings
  have hmax : run.chain.length + 2 ≤ search.maxDepth := run.le_maxDepth hceiling hle
  have hdepth : 1 + run.chain.length ≤ search.maxDepth := by omega
  have hplan : planFor search param run.sampler (some run.samples.slot) (1 + run.chain.length) =
      .single (.answer (some value)) :=
    planFor_held run.sampled.runs run.sampled.isOfType (NodeLibrary.rule?_builtin hr) hh
  obtain ⟨visited, hrun⟩ := run.run_resolve hceiling hle hp
    (.ends run.sampled.found hdepth hplan) (.cons run.sampled.hasType .nil) (by decide) (by decide)
    (by decide)
  rw [hrun]
  exact hread

/-- A parameter that ends at a node behind an input of the sampler. -/
lemma run_resolve_behind_sampler (hp : param ≠ .vae) {input classType : String} {node : Node}
    {answer : Option Json}
    (hr : NodeLibrary.builtin.rule? "KSampler" param = some (.trace input))
    (hfeeds : graph.Feeds run.sampler input classType node)
    (hother : ["SaveImage", "KSampler", classType].Nodup)
    (hapart : classType ∉ decoderTypes ++ operationTypes)
    (hplan : ∀ slot depth, planFor (.ofSettings graph .builtin settings) param node slot depth =
      .single (.answer answer)) :
    ∃ visited, ((Search.ofSettings graph .builtin settings).resolve run.save.id param).run .empty =
      (answer, ⟨visited, []⟩) := by
  let search := Search.ofSettings graph .builtin settings
  obtain ⟨link, hlink, hruns⟩ := hfeeds
  have hmax : run.chain.length + 2 ≤ search.maxDepth := run.le_maxDepth hceiling hle
  have hdepth : 1 + run.chain.length + 1 ≤ search.maxDepth := by omega
  have hsampler : planFor search param run.sampler (some run.samples.slot)
      (1 + run.chain.length) = .onward none link (1 + run.chain.length + 1) :=
    planFor_traced run.sampled.runs run.sampled.isOfType hr hlink
  have hroute : search.Route param run.samples.source (some run.samples.slot)
      (1 + run.chain.length) [run.samples.source, link.source] [] answer :=
    .onward run.sampled.found (Nat.le_of_succ_le hdepth) hsampler
      (.ends hruns.found hdepth (hplan _ _))
  have hapart' : ∀ other ∈ ["KSampler", classType], other ∉ decoderTypes ++ operationTypes :=
    List.forall_mem_cons.mpr ⟨by decide, List.forall_mem_singleton.mpr hapart⟩
  exact run.run_resolve hceiling hle hp hroute
    (.cons run.sampled.hasType (.cons hruns.hasType .nil)) (Nat.le_refl 2) hother hapart'

/-- A parameter in a widget of a node behind an input of the sampler. -/
lemma read_behind_sampler (hp : param ≠ .vae) {input classType name : String} {node : Node}
    {value : Json}
    (hr : NodeLibrary.rule? ⟨NodeLibrary.catalogues⟩ "KSampler" param = some (.trace input))
    (hfeeds : graph.Feeds run.sampler input classType node)
    (hother : ["SaveImage", "KSampler", classType].Nodup)
    (hapart : classType ∉ decoderTypes ++ operationTypes)
    (hr' : NodeLibrary.rule? ⟨NodeLibrary.catalogues⟩ classType param = some (.widget name false))
    (hh : node.Holds .builtin name value) {α : Type} {read : Json → Option α} {a : α}
    (hread : read value = some a) :
    (((Search.ofSettings graph .builtin settings).resolve run.save.id param).run .empty).1.bind
      read = some a := by
  let search := Search.ofSettings graph .builtin settings
  obtain ⟨link, hlink, hruns⟩ := hfeeds
  have hplan : ∀ slot depth, planFor search param node slot depth =
      .single (.answer (some value)) := fun _ _ =>
    planFor_held hruns.runs hruns.isOfType (NodeLibrary.rule?_builtin hr') hh
  obtain ⟨visited, hrun⟩ := run.run_resolve_behind_sampler hceiling hle hp
    (NodeLibrary.rule?_builtin hr) ⟨link, hlink, hruns⟩ hother hapart hplan
  rw [hrun]
  exact hread

/-- No LoRA lies between the sampler and the checkpoint. -/
lemma gathers_nothing :
    (((Search.ofSettings graph .builtin settings).resolve run.save.id .lora).run
      .empty).2.gathered = [] := by
  let search := Search.ofSettings graph .builtin settings
  obtain ⟨link, hlink, hruns⟩ := run.loads
  have hrule : NodeLibrary.builtin.rule? "KSampler" .lora = some (.trace "model") :=
    NodeLibrary.rule?_builtin (by decide +kernel)
  have hplan : ∀ slot depth, planFor search .lora run.checkpoint slot depth =
      .single (.answer none) := fun _ _ =>
    planFor_deadEnd hruns.runs hruns.isOfType NodeLibrary.get?_builtin_checkpointLoader rfl rfl rfl
  obtain ⟨visited, hrun⟩ := run.run_resolve_behind_sampler hceiling hle (by decide) hrule
    ⟨link, hlink, hruns⟩ (by decide) (by decide) hplan
  rw [hrun]

end Ceilings

end Workflow.Graph.PlainRun

namespace Tracing

open Workflow

/-- The facts of a plain text-to-image workflow are its literals, however far the sampler is from
the save within the ceiling. -/
theorem facts_plainRun (graph : Graph) (settings : Settings) (run : graph.PlainRun)
    (hceiling : run.chain.length + 2 ≤ settings.maxDepth) (hle : settings.maxDepth ≤ 128) :
    ∃ vae, graph.facts .builtin settings = run.literals.facts vae := by
  let search := Search.ofSettings graph .builtin settings
  let found (param : Param) := ((search.resolve run.save.id param).run .empty).1
  have hprompt : (found .prompt).bind textValue? = some run.literals.positive :=
    run.read_behind_sampler hceiling hle (by decide) (by decide +kernel) run.encodesPositive
      (by decide) (by decide) (by decide +kernel) run.positiveText rfl
  have hnegative : (found .negativePrompt).bind textValue? = some run.literals.negative :=
    run.read_behind_sampler hceiling hle (by decide) (by decide +kernel) run.encodesNegative
      (by decide) (by decide) (by decide +kernel) run.negativeText rfl
  have hmodel : (found .model).bind textValue? = some run.literals.checkpoint :=
    run.read_behind_sampler hceiling hle (by decide) (by decide +kernel) run.loads
      (by decide) (by decide) (by decide +kernel) run.checkpointName rfl
  have hwidth : (found .width).bind naturalValue? = some run.literals.width :=
    run.read_behind_sampler hceiling hle (by decide) (by decide +kernel) run.begins
      (by decide) (by decide) (by decide +kernel) run.width (naturalValue?_toNat _)
  have hheight : (found .height).bind naturalValue? = some run.literals.height :=
    run.read_behind_sampler hceiling hle (by decide) (by decide +kernel) run.begins
      (by decide) (by decide) (by decide +kernel) run.height (naturalValue?_toNat _)
  have hseed : (found .seed).bind Seed.ofJson? = some run.literals.seed :=
    run.read_at_sampler hceiling hle (by decide) (by decide +kernel) run.seed (Seed.ofJson?_toNat _)
  have hsteps : (found .steps).bind naturalValue? = some run.literals.steps :=
    run.read_at_sampler hceiling hle (by decide) (by decide +kernel) run.steps
      (naturalValue?_toNat _)
  have hcfg : (found .cfg).bind Json.looseFloat? = some run.literals.cfg.float :=
    run.read_at_sampler hceiling hle (by decide) (by decide +kernel) run.cfg rfl
  have hsampler : (found .sampler).bind textValue? = some run.literals.samplerName :=
    run.read_at_sampler hceiling hle (by decide) (by decide +kernel) run.samplerName rfl
  have hscheduler : (found .scheduler).bind textValue? = some run.literals.scheduler :=
    run.read_at_sampler hceiling hle (by decide) (by decide +kernel) run.scheduler rfl
  have hdenoise : (found .denoise).bind Json.looseFloat? = some run.literals.denoise.float :=
    run.read_at_sampler hceiling hle (by decide) (by decide +kernel) run.denoise rfl
  have hloras : ((search.resolve run.save.id .lora).run .empty).2.gathered.filterMap
      (lora? search) = [] := by
    rw [run.gathers_nothing hceiling hle]
    rfl
  refine ⟨(found .vae).bind textValue?, ?_⟩
  rw [facts_of_single run.save (sinks_of_single run.onlySink), PlainLiterals.facts, Facts.mk.injEq]
  exact ⟨hprompt, hnegative, hmodel, rfl, hloras, hseed, hsteps, hcfg, hsampler, hscheduler,
    hdenoise, hwidth, hheight⟩

def enlargedSave : Node := ⟨"9", "SaveImage", none, [("images", .link ⟨"8", 0⟩)], [], .active⟩

def enlargedScale : Node :=
  ⟨"8", "ImageScaleBy", none, [("image", .link ⟨"7", 0⟩), ("scale_by", .literal (.num (.int 2)))],
    [], .active⟩

/-- The decoder takes its VAE from a node that is not there. -/
def enlargedDecoder : Node :=
  ⟨"7", "VAEDecode", none, [("samples", .link ⟨"3", 0⟩), ("vae", .link ⟨"12", 0⟩)], [], .active⟩

def enlargedSampler : Node :=
  ⟨"3", "KSampler", none,
    [("seed", .literal (.num (.int 42))), ("steps", .literal (.num (.int 20))),
      ("cfg", .literal (.num (.int 8))), ("sampler_name", .literal (.str "euler")),
      ("scheduler", .literal (.str "normal")), ("denoise", .literal (.num (.int 1))),
      ("model", .link ⟨"4", 0⟩), ("positive", .link ⟨"6", 0⟩), ("negative", .link ⟨"6", 0⟩),
      ("latent_image", .link ⟨"5", 0⟩)], [], .active⟩

def enlargedCheckpoint : Node :=
  ⟨"4", "CheckpointLoaderSimple", none, [("ckpt_name", .literal (.str "dreamy"))], [], .active⟩

def enlargedLatent : Node :=
  ⟨"5", "EmptyLatentImage", none,
    [("width", .literal (.num (.int 512))), ("height", .literal (.num (.int 768)))], [], .active⟩

/-- The same encoder for both prompts. -/
def enlargedEncoder : Node :=
  ⟨"6", "CLIPTextEncode", none, [("text", .literal (.str "a cat"))], [], .active⟩

/-- A node of unknown type that feeds itself. -/
def strayNode : Node := ⟨"10", "Unheard Of", none, [("self", .link ⟨"10", 0⟩)], [], .active⟩

/-- A picture that is made larger after it was decoded. -/
def enlargedGraph : Graph :=
  .ofNodes [enlargedSave, enlargedScale, enlargedDecoder, enlargedSampler, enlargedCheckpoint,
    enlargedLatent, enlargedEncoder, strayNode]

def enlargedRun : enlargedGraph.PlainRun where
  literals := ⟨"a cat", "a cat", "dreamy", 42, 20, .int 8, "euler", "normal", .int 1, 512, 768⟩
  save := enlargedSave
  chain := [enlargedScale, enlargedDecoder]
  sampler := enlargedSampler
  positive := enlargedEncoder
  negative := enlargedEncoder
  checkpoint := enlargedCheckpoint
  latent := enlargedLatent
  images := ⟨"8", 0⟩
  samples := ⟨"3", 0⟩
  onlySink := by
    rw [NodeLibrary.builtin_eq_catalogues]
    rfl
  saves := ⟨rfl, rfl, rfl⟩
  savesImages := rfl
  made := .cons rfl (.operation rfl (by decide) rfl) (.cons rfl (.decoder rfl (by decide) rfl) .nil)
  distinct := by decide
  sampled := ⟨rfl, rfl, rfl⟩
  seed := ⟨rfl, rfl⟩
  steps := ⟨rfl, rfl⟩
  cfg := ⟨rfl, rfl⟩
  samplerName := ⟨rfl, rfl⟩
  scheduler := ⟨rfl, rfl⟩
  denoise := ⟨rfl, rfl⟩
  encodesPositive := ⟨⟨"6", 0⟩, rfl, rfl, rfl, rfl⟩
  positiveText := ⟨rfl, rfl⟩
  encodesNegative := ⟨⟨"6", 0⟩, rfl, rfl, rfl, rfl⟩
  negativeText := ⟨rfl, rfl⟩
  loads := ⟨⟨"4", 0⟩, rfl, rfl, rfl, rfl⟩
  checkpointName := ⟨rfl, rfl⟩
  begins := ⟨⟨"5", 0⟩, rfl, rfl, rfl, rfl⟩
  width := ⟨rfl, rfl⟩
  height := ⟨rfl, rfl⟩

/-- The ceiling is as low as it may be. -/
theorem facts_plainRun_enlargedGraph :
    (enlargedRun.chain.length + 2 ≤ 4 ∧ 4 ≤ 128) ∧
      ∃ vae, enlargedGraph.facts .builtin { ({} : Settings) with maxDepth := 4 } =
        enlargedRun.literals.facts vae :=
  ⟨⟨by decide, by decide⟩, facts_plainRun enlargedGraph _ enlargedRun (by decide) (by decide)⟩

end Tracing

end ImageRecipe
