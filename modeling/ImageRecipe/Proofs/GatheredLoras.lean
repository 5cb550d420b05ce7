import ImageRecipe.Proofs.LoraChains
import ImageRecipe.Proofs.Upstream
import Mathlib.Data.List.Nodup

/-!
# The LoRAs that are gathered

A search for LoRAs may branch and go round in circles, but it asks each node
once. What it gathers therefore falls into blocks, one for each loader that it
visits: a loader with one LoRA adds at most one value, a loader with a list adds
the entries of its list that are on and have a name. A block is not broken up by
what is gathered elsewhere, and all nodes lie upstream of the one sink where the
list was gathered.
-/
namespace ImageRecipe

/-- An object that names a LoRA and is not switched off. -/
def Json.IsEnabledLora (entry : Json) : Prop :=
  ∃ members name, entry = .obj members ∧ Json.lookup? "lora" members = some (.str name) ∧
    name ≠ "" ∧ name ≠ "None" ∧ Json.lookup? "on" members ≠ some (.bool false)

namespace Tracing

lemma bool?_eq_some_iff {value : Json} {b : Bool} : value.bool? = some b ↔ value = .bool b := by
  cases value <;> simp [Json.bool?]

lemma string?_eq_some_iff {value : Json} {s : String} :
    value.string? = some s ↔ value = .str s := by
  cases value <;> simp [Json.string?]

lemma isEnabledLora_iff {entry : Json} : isEnabledLora entry = true ↔ entry.IsEnabledLora := by
  cases entry with
  | obj members =>
    have hon : (Json.lookup? "on" members).bind Json.bool? ≠ some false ↔
        Json.lookup? "on" members ≠ some (.bool false) := by
      rw [not_iff_not, Option.bind_eq_some_iff]
      simp only [bool?_eq_some_iff, exists_eq_right]
    simp only [isEnabledLora, Json.get?, Json.IsEnabledLora, Json.obj.injEq, Bool.and_eq_true,
      bne_iff_ne, hon]
    constructor
    · rintro ⟨hname, hon⟩
      cases hlora : (Json.lookup? "lora" members).bind Json.string? with
      | none => simp [hlora] at hname
      | some name =>
        obtain ⟨value, hvalue, hstring⟩ := Option.bind_eq_some_iff.mp hlora
        rw [string?_eq_some_iff.mp hstring] at hvalue
        simp only [hlora, Bool.and_eq_true, bne_iff_ne] at hname
        exact ⟨members, name, rfl, hvalue, hname.1, hname.2, hon⟩
    · rintro ⟨_, name, rfl, hlora, hempty, hnone, hon⟩
      refine ⟨?_, hon⟩
      simp [hlora, Json.string?, hempty, hnone]
  | _ => simp [isEnabledLora, Json.get?, Json.IsEnabledLora]

end Tracing

instance : DecidablePred Json.IsEnabledLora := fun _ =>
  decidable_of_iff _ Tracing.isEnabledLora_iff

/-- Whether a rule notes values on the way. -/
def Rule.notes : Rule → Bool
  | .widget _ gathers => gathers
  | .extract .loraList => true
  | _ => false

namespace Workflow

open Tracing

/-- The type of the loader with a list of LoRAs. -/
def loraListType : String := "Power Lora Loader (rgthree)"

/-- What a node has in its inputs named `lora_` and so on, and then in its widgets, as it was
written. -/
def Node.loraCells (node : Node) : List Json :=
  node.inputs.filterMap (fun entry =>
    if "lora_".toList <+: entry.1.toList then entry.2.literal? else none) ++ node.widgets

/-- The LoRAs of a node's list that are on. -/
def Node.listedLoras (node : Node) : List Json :=
  node.loraCells.filter fun entry => entry.IsEnabledLora

/-- What a node adds to the gathered LoRAs. -/
inductive Node.AddsLoras (node : Node) : List Json → Prop
  | loader {values : List Json} (hmode : node.mode = .active)
      (htype : node.classType ∈ loraLoaderTypes) (hlen : values.length ≤ 1) :
      node.AddsLoras values
  | list (hmode : node.mode = .active) (htype : node.classType = loraListType) :
      node.AddsLoras node.listedLoras

section

variable {node : Node} {values : List Json} (h : node.AddsLoras values)
include h

lemma Node.AddsLoras.runs :
    node.mode = .active ∧ node.classType ∈ loraLoaderTypes ++ [loraListType] := by
  cases h with
  | loader hmode htype _ => exact ⟨hmode, List.mem_append_left _ htype⟩
  | list hmode htype => exact ⟨hmode, List.mem_append_right _ (List.mem_singleton.mpr htype)⟩

lemma Node.AddsLoras.length_le (htype : node.classType ∈ loraLoaderTypes) :
    values.length ≤ 1 := by
  cases h with
  | loader _ _ hlen => exact hlen
  | list _ hlist => exact absurd (hlist ▸ htype) (by decide)

lemma Node.AddsLoras.eq_listedLoras (htype : node.classType = loraListType) :
    values = node.listedLoras := by
  cases h with
  | loader _ hloader _ => exact absurd (htype ▸ hloader) (by decide)
  | list _ _ => rfl

end

/-- What was gathered at one node. -/
structure LoraBlock where
  node : Node
  values : List Json

def LoraBlock.id (block : LoraBlock) : String := block.node.id

def LoraBlock.entries (block : LoraBlock) : List (String × Json) :=
  block.values.map (block.id, ·)

end Workflow

namespace Tracing

open Workflow

/-- On the way from one trail to another the values of some blocks were gathered, each block at a
node that was not visited before. -/
structure GatheredBlocks (graph : Graph) (trail trail' : Trail) (blocks : List LoraBlock) :
    Prop where
  gathered : trail'.gathered = trail.gathered ++ blocks.flatMap LoraBlock.entries
  visited : trail.visited ⊆ trail'.visited
  distinct : (blocks.map LoraBlock.id).Nodup
  fresh : ∀ block ∈ blocks, block.id ∉ trail.visited
  entered : ∀ block ∈ blocks, block.id ∈ trail'.visited
  found : ∀ block ∈ blocks, graph.node? block.id = some block.node
  added : ∀ block ∈ blocks, block.node.AddsLoras block.values

namespace GatheredBlocks

variable {graph : Graph} {trail between trail' : Trail} {blocks blocks' : List LoraBlock}
  {id : String}

lemma refl (trail : Trail) : GatheredBlocks graph trail trail [] where
  gathered := (List.append_nil _).symm
  visited := List.Subset.refl _
  distinct := List.nodup_nil
  fresh := by simp
  entered := by simp
  found := by simp
  added := by simp

lemma trans (h : GatheredBlocks graph trail between blocks)
    (h' : GatheredBlocks graph between trail' blocks') :
    GatheredBlocks graph trail trail' (blocks ++ blocks') where
  gathered := by rw [h'.gathered, h.gathered, List.flatMap_append, List.append_assoc]
  visited := List.Subset.trans h.visited h'.visited
  distinct := by
    rw [List.map_append, List.nodup_append]
    refine ⟨h.distinct, h'.distinct, ?_⟩
    rintro _ hid _ hid' rfl
    obtain ⟨block, hblock, rfl⟩ := List.mem_map.mp hid
    obtain ⟨block', hblock', heq⟩ := List.mem_map.mp hid'
    exact h'.fresh block' hblock' (heq ▸ h.entered block hblock)
  fresh := by
    rw [List.forall_mem_append]
    exact ⟨h.fresh, fun block hblock hmem => h'.fresh block hblock (h.visited hmem)⟩
  entered := by
    rw [List.forall_mem_append]
    exact ⟨fun block hblock => h'.visited (h.entered block hblock), h'.entered⟩
  found := List.forall_mem_append.mpr ⟨h.found, h'.found⟩
  added := List.forall_mem_append.mpr ⟨h.added, h'.added⟩

/-- A node that is entered need not be told. -/
lemma of_enter (h : GatheredBlocks graph (trail.enter id) trail' blocks) :
    GatheredBlocks graph trail trail' blocks :=
  { h with
    visited := fun _ hmem => h.visited (List.mem_cons_of_mem _ hmem)
    fresh := fun block hblock hmem => h.fresh block hblock (List.mem_cons_of_mem _ hmem) }

/-- A node that was entered first adds a block of its own between the blocks of others. -/
lemma insert_own (block : LoraBlock) (hfresh : block.id ∉ trail.visited)
    (hfound : graph.node? block.id = some block.node)
    (hadded : block.node.AddsLoras block.values)
    (hbefore : GatheredBlocks graph (trail.enter block.id) between blocks)
    (hafter : GatheredBlocks graph
      { between with gathered := between.gathered ++ block.entries } trail' blocks') :
    GatheredBlocks graph trail trail' (blocks ++ block :: blocks') where
  gathered := by
    rw [hafter.gathered, hbefore.gathered, List.flatMap_append, List.flatMap_cons,
      Trail.gathered_enter]
    simp only [List.append_assoc]
  visited := List.Subset.trans hbefore.of_enter.visited hafter.visited
  distinct := by
    have hown : block.id ∈ between.visited := hbefore.visited List.mem_cons_self
    rw [List.map_append, List.map_cons, List.nodup_append, List.nodup_cons]
    refine ⟨hbefore.distinct, ⟨?_, hafter.distinct⟩, ?_⟩
    · intro hid
      obtain ⟨other, hother, heq⟩ := List.mem_map.mp hid
      exact hafter.fresh other hother (heq ▸ hown)
    · rintro _ hid _ hid' rfl
      obtain ⟨other, hother, rfl⟩ := List.mem_map.mp hid
      rcases List.mem_cons.mp hid' with heq | hid'
      · exact hbefore.fresh other hother (heq ▸ List.mem_cons_self)
      · obtain ⟨other', hother', heq⟩ := List.mem_map.mp hid'
        exact hafter.fresh other' hother' (heq ▸ hbefore.entered other hother)
  fresh := by
    rw [List.forall_mem_append, List.forall_mem_cons]
    exact ⟨hbefore.of_enter.fresh, hfresh,
      fun other hother hmem => hafter.fresh other hother (hbefore.of_enter.visited hmem)⟩
  entered := by
    rw [List.forall_mem_append, List.forall_mem_cons]
    exact ⟨fun other hother => hafter.visited (hbefore.entered other hother),
      hafter.visited (hbefore.visited List.mem_cons_self), hafter.entered⟩
  found := List.forall_mem_append.mpr
    ⟨hbefore.found, List.forall_mem_cons.mpr ⟨hfound, hafter.found⟩⟩
  added := List.forall_mem_append.mpr
    ⟨hbefore.added, List.forall_mem_cons.mpr ⟨hadded, hafter.added⟩⟩

end GatheredBlocks

variable {search : Search} {node : Node} {slot : Option UInt32} {depth : Nat}

/-- The entries of a list are those that are on. -/
lemma enabledLoras_eq_listedLoras (node : Node) : enabledLoras node = node.listedLoras := by
  have hbool : ∀ entry, isEnabledLora entry = decide entry.IsEnabledLora := fun entry =>
    Bool.eq_iff_iff.mpr (isEnabledLora_iff.trans decide_eq_true_iff.symm)
  have hfront : ∀ name : String,
      Text.beginsWith "lora_".toList name.toList = true ↔ "lora_".toList <+: name.toList := by
    intro name
    rw [Text.beginsWith, Option.isSome_iff_exists]
    exact exists_congr fun rest => Text.after?_eq_some_iff.trans eq_comm
  rw [enabledLoras, Node.listedLoras, Node.loraCells, funext hbool, List.filter_append,
    List.filter_append, List.filter_filterMap, List.filter_filterMap]
  congr 1
  refine List.filterMap_congr fun entry _ => ?_
  obtain ⟨name, input⟩ := entry
  simp only [hfront]
  cases input with
  | link target => simp [Input.literal?]
  | literal value =>
    cases value <;> simp [Input.literal?, Json.IsEnabledLora]

lemma classType_of_get? {library : NodeLibrary} {classType : String} {d : Definition}
    (h : library.get? classType = some d) : d.classType = classType := by
  have hfound := List.find?_some h
  simpa using hfound

/-- The only descriptions that note anything in a search for LoRAs are those of the loaders. -/
lemma loraRule_cases {classType : String} {d : Definition} {rule : Rule}
    (hd : NodeLibrary.builtin.get? classType = some d) (hr : d.rule? .lora = some rule) :
    (classType ∈ loraLoaderTypes ∧ rule = .widget "lora_name" true) ∨
      (classType = loraListType ∧ rule = .extract .loraList) ∨ rule.notes = false := by
  have hall : ∀ d ∈ NodeLibrary.catalogues, ∀ rule ∈ d.rule? .lora,
      (d.classType ∈ loraLoaderTypes ∧ rule = .widget "lora_name" true) ∨
        (d.classType = loraListType ∧ rule = .extract .loraList) ∨ rule.notes = false := by
    decide +kernel
  exact classType_of_get? hd ▸ hall d (NodeLibrary.mem_catalogues hd) rule hr

/-- A search for LoRAs gathers at loaders that run only: what stands in the widget of a loader
with one LoRA, or the LoRAs of a list that are on. -/
lemma gather_cases (hlib : search.library = .builtin) {entries : List Step} {onward : Step}
    (h : planFor search .lora node slot depth = .gather entries onward) :
    node.mode = .active ∧
      ((node.classType ∈ loraLoaderTypes ∧ ∃ entry, entries = [entry]) ∨
        (node.classType = loraListType ∧
          entries = node.listedLoras.map fun entry => .answer (some entry))) := by
  obtain ⟨hs, d, rule, hd, hr, hplan⟩ := exists_rulePlan_of_gather h
  refine ⟨by simpa [Mode.isSkipped] using hs, ?_⟩
  rcases loraRule_cases (hlib ▸ hd) hr with ⟨htype, rfl⟩ | ⟨htype, rfl⟩ | hnotes
  · cases hplan
    exact .inl ⟨htype, _, rfl⟩
  · cases hplan
    exact .inr ⟨htype, by rw [enabledLoras_eq_listedLoras]⟩
  · rcases gathers_of_rulePlan hplan with ⟨name, rfl⟩ | rfl
    · cases hnotes
    · cases hnotes

/-- Whatever was gathered and visited before, what a walk adds falls into blocks. -/
def Walk.GathersBlocks (graph : Graph) {α : Type} (walk : Walk α) : Prop :=
  ∀ trail, ∃ blocks, GatheredBlocks graph trail (walk.run trail).2 blocks

section Walks

variable {graph : Graph} {visit : Link → Nat → Walk (Option Json)}

lemma gathersBlocks_pure {α : Type} (a : α) : (pure a : Walk α).GathersBlocks graph :=
  fun trail => ⟨[], .refl trail⟩

lemma gathersBlocks_bind {α β : Type} {walk : Walk α} {next : α → Walk β}
    (h : walk.GathersBlocks graph) (hnext : ∀ a, (next a).GathersBlocks graph) :
    (walk >>= next).GathersBlocks graph := by
  intro trail
  obtain ⟨blocks, hblocks⟩ := h trail
  obtain ⟨blocks', hblocks'⟩ := hnext (walk.run trail).1 (walk.run trail).2
  exact ⟨blocks ++ blocks', hblocks.trans hblocks'⟩

variable (hvisit : ∀ target depth, (visit target depth).GathersBlocks graph)
include hvisit

lemma gathersBlocks_step (s : Step) : (Walk.step visit s).GathersBlocks graph := by
  cases s with
  | answer value => exact gathersBlocks_pure value
  | follow target depth => exact hvisit target depth

/-- A plan that does not gather adds the blocks of the visits that it asks for. -/
lemma gathersBlocks_carryOut {id : String} {plan : Plan}
    (hplan : ∀ entries onward, plan ≠ .gather entries onward) :
    (Walk.carryOut visit id plan).GathersBlocks graph :=
  Walk.carryOut_of_visits gathersBlocks_pure gathersBlocks_bind hvisit
    fun entries onward h => absurd h (hplan entries onward)

end Walks

/-- The values of a list are noted one after the other, with nothing in between. -/
lemma run_gather_answers (visit : Link → Nat → Walk (Option Json)) (id : String)
    (values : List Json) (onward : Step) (trail : Trail) :
    (Walk.carryOut visit id
        (.gather (values.map fun value => .answer (some value)) onward)).run trail =
      (Walk.step visit onward).run
        { trail with gathered := trail.gathered ++ values.map (id, ·) } := by
  induction values generalizing trail with
  | nil =>
    rw [List.map_nil, List.map_nil, List.append_nil]
    rfl
  | cons value values ih =>
    rw [List.map_cons, run_gather_cons, Walk.run_step_answer, ih]
    simp [Trail.note, Trail.gather]

lemma note_eq (trail : Trail) (id : String) (value : Option Json) :
    trail.note id value =
      { trail with gathered := trail.gathered ++ value.toList.map (id, ·) } := by
  cases value with
  | none => simp [Trail.note]
  | some value => rfl

/-- A loader that was entered adds a block of its own, behind those of what its widget asks for and
before those of what lies behind it. -/
lemma exists_blocks_of_gather (hlib : search.library = .builtin)
    {visit : Link → Nat → Walk (Option Json)}
    (hvisit : ∀ target depth, (visit target depth).GathersBlocks search.graph) {trail : Trail}
    (hn : search.graph.node? node.id = some node) (hfresh : node.id ∉ trail.visited)
    {entries : List Step} {onward : Step}
    (hplan : planFor search .lora node slot depth = .gather entries onward) :
    ∃ blocks, GatheredBlocks search.graph trail
      ((Walk.carryOut visit node.id (.gather entries onward)).run (trail.enter node.id)).2
      blocks := by
  obtain ⟨hmode, ⟨htype, entry, rfl⟩ | ⟨htype, rfl⟩⟩ := gather_cases hlib hplan
  · obtain ⟨blocks, hbefore⟩ := gathersBlocks_step hvisit entry (trail.enter node.id)
    let value := ((Walk.step visit entry).run (trail.enter node.id)).1
    have hadds : node.AddsLoras value.toList := .loader hmode htype (by cases value <;> simp)
    rw [run_gather_cons, note_eq]
    obtain ⟨blocks', hafter⟩ := gathersBlocks_step hvisit onward _
    exact ⟨_, .insert_own ⟨node, value.toList⟩ hfresh hn hadds hbefore hafter⟩
  · rw [run_gather_answers]
    obtain ⟨blocks', hafter⟩ := gathersBlocks_step hvisit onward _
    exact ⟨_, .insert_own ⟨node, node.listedLoras⟩ hfresh hn (.list hmode htype) (.refl _) hafter⟩

/-- A visit adds the blocks of the visits that it asks for, and in a loader's case one of its own.
Induction on the room. -/
theorem gathersBlocks_visit (hlib : search.library = .builtin) (room : Nat) (id : String)
    (slot : Option UInt32) (depth : Nat) :
    (search.visit .lora room id slot depth).GathersBlocks search.graph := by
  induction room generalizing id slot depth with
  | zero => exact gathersBlocks_pure none
  | succ room ih =>
    intro trail
    have hvisit : ∀ target depth,
        (search.visitBehind .lora room target depth).GathersBlocks search.graph :=
      fun target depth => ih target.source target.slot depth
    by_cases hr : search.Refuses id depth trail
    · rw [search.run_visit_refused .lora hr]
      exact ⟨[], .refl trail⟩
    cases hn : search.graph.node? id with
    | none =>
      rw [search.run_visit_missing .lora hr hn]
      exact ⟨[], (GatheredBlocks.refl _).of_enter⟩
    | some node =>
      rw [search.run_visit_found .lora hr hn]
      by_cases hplan : ∃ entries onward,
          planFor search .lora node slot depth = .gather entries onward
      · obtain ⟨entries, onward, hplan⟩ := hplan
        obtain rfl : node.id = id := Graph.id_of_node? hn
        rw [hplan]
        exact exists_blocks_of_gather hlib hvisit hn (fun hmem => hr (.inr hmem)) hplan
      · obtain ⟨blocks, hblocks⟩ := gathersBlocks_carryOut hvisit
          (fun entries onward h => hplan ⟨entries, onward, h⟩) (trail.enter id)
        exact ⟨blocks, hblocks.of_enter⟩

end Tracing

namespace Workflow.Graph

open Classical in
/-- The nodes of a graph that lie upstream of one of them. -/
noncomputable def above (graph : Graph) (start : String) : Graph :=
  ⟨graph.nodes.filter fun node => graph.Upstream start node.id, []⟩

variable {graph : Graph} {start id : String} {node : Node}

lemma node?_above_of_upstream (h : graph.Upstream start id) :
    graph.node? id = (graph.above start).node? id := by
  rw [node?, node?, above, List.find?_filter]
  congr 1
  funext node
  by_cases heq : node.id = id
  · simp [heq, h]
  · simp [heq]

lemma upstream_of_node?_above (h : (graph.above start).node? id = some node) :
    graph.Upstream start id := by
  have hmem := (List.mem_filter.mp (mem_of_node? h)).2
  rw [id_of_node? h] at hmem
  simpa using hmem

end Workflow.Graph

namespace Tracing

open Workflow

/-- What is gathered from a node on lies upstream of it, since the search is the same on that part
of the graph. -/
lemma exists_blocks_resolve (graph : Graph) (settings : Settings) (start : String) :
    ∃ blocks : List LoraBlock, (blocks.map LoraBlock.id).Nodup ∧
      (((Search.ofSettings graph .builtin settings).resolve start .lora).run .empty).2.gathered =
        blocks.flatMap LoraBlock.entries ∧
      ∀ block ∈ blocks, graph.Upstream start block.id ∧
        graph.node? block.id = some block.node ∧ block.node.AddsLoras block.values := by
  let search := Search.ofSettings (graph.above start) .builtin settings
  have hlib : search.library = NodeLibrary.builtin := rfl
  have hsame := run_resolve_of_upstream graph (graph.above start) .builtin settings start .lora
    (fun _ => Graph.node?_above_of_upstream) .empty
  obtain ⟨blocks, hblocks⟩ := gathersBlocks_visit hlib search.maxPath start none 0 .empty
  refine ⟨blocks, hblocks.distinct, ?_, fun block hblock => ?_⟩
  · rw [hsame]
    exact hblocks.gathered
  · have hupstream := Graph.upstream_of_node?_above (hblocks.found block hblock)
    refine ⟨hupstream, ?_, hblocks.added block hblock⟩
    rw [Graph.node?_above_of_upstream hupstream]
    exact hblocks.found block hblock

/-- What is collected was gathered from one of the sinks. Induction on the sinks. -/
lemma collect_eq_gathered {search : Search} {param : Param} (sinks : List Node) (trail : Trail) :
    ((search.collect param sinks).run trail).1 = [] ∨ ∃ sink ∈ sinks,
      ((search.collect param sinks).run trail).1 =
        ((search.resolve sink.id param).run .empty).2.gathered := by
  induction sinks generalizing trail with
  | nil => exact .inl rfl
  | cons sink sinks ih =>
    have hclear : (search.resolve sink.id param).run { trail with gathered := [] } =
        (search.resolve sink.id param).run .empty := rfl
    rw [Search.run_collect_cons, hclear]
    dsimp only
    split
    · rcases ih ((search.resolve sink.id param).run .empty).2 with h | ⟨other, hother, h⟩
      · exact .inl h
      · exact .inr ⟨other, List.mem_cons_of_mem _ hother, h⟩
    · exact .inr ⟨sink, List.mem_cons_self, rfl⟩

/-- A block stands in one piece, and no other entry is of its node. -/
lemma exists_split {blocks : List LoraBlock} (h : (blocks.map LoraBlock.id).Nodup)
    {block : LoraBlock} (hblock : block ∈ blocks) :
    ∃ before after, blocks.flatMap LoraBlock.entries = before ++ block.entries ++ after ∧
      ∀ entry ∈ before ++ after, entry.1 ≠ block.id := by
  obtain ⟨before, after, rfl⟩ := List.append_of_mem hblock
  have hother : ∀ other ∈ before ++ after, other.id ≠ block.id := by
    intro other hmem heq
    rw [List.map_append, List.map_cons] at h
    have hnot := (List.nodup_middle.mp h).notMem
    rw [← List.map_append, ← heq] at hnot
    exact hnot (List.mem_map_of_mem hmem)
  refine ⟨before.flatMap LoraBlock.entries, after.flatMap LoraBlock.entries, by simp, ?_⟩
  intro entry hentry
  rw [← List.flatMap_append] at hentry
  obtain ⟨other, hmem, hentry⟩ := List.mem_flatMap.mp hentry
  obtain ⟨value, -, rfl⟩ := List.mem_map.mp hentry
  exact hother other hmem

lemma exists_block_of_mem {blocks : List LoraBlock} {entry : String × Json}
    (h : entry ∈ blocks.flatMap LoraBlock.entries) : ∃ block ∈ blocks, block.id = entry.1 := by
  obtain ⟨block, hblock, hentry⟩ := List.mem_flatMap.mp h
  obtain ⟨value, -, rfl⟩ := List.mem_map.mp hentry
  exact ⟨block, hblock, rfl⟩

lemma count_piece {before after : List (String × Json)} {id : String} (values : List Json)
    (h : ∀ entry ∈ before ++ after, entry.1 ≠ id) :
    ((before ++ values.map (id, ·) ++ after).map Prod.fst).count id = values.length := by
  have hnone : ∀ entries ⊆ before ++ after, (entries.map Prod.fst).count id = 0 := by
    intro entries hsub
    rw [List.count_eq_zero]
    intro hmem
    obtain ⟨entry, hentry, heq⟩ := List.mem_map.mp hmem
    exact h entry (hsub hentry) heq
  have hpiece : ((values.map (id, ·)).map Prod.fst).count id = values.length := by
    rw [List.map_map]
    exact List.count_eq_length.mpr (by simp) |>.trans (List.length_map _)
  rw [List.map_append, List.map_append, List.count_append, List.count_append, hpiece,
    hnone before (List.subset_append_left _ _), hnone after (List.subset_append_right _ _)]
  omega

/-- What a node added to a list of blocks stands in one piece. -/
lemma exists_piece {graph : Graph} {blocks : List LoraBlock}
    (hdistinct : (blocks.map LoraBlock.id).Nodup)
    (hgood : ∀ block ∈ blocks,
      graph.node? block.id = some block.node ∧ block.node.AddsLoras block.values)
    {id : String} {node : Node} (hn : graph.node? id = some node)
    (hid : id ∈ (blocks.flatMap LoraBlock.entries).map Prod.fst) :
    ∃ values before after, node.AddsLoras values ∧
      blocks.flatMap LoraBlock.entries = before ++ values.map (id, ·) ++ after ∧
      ∀ entry ∈ before ++ after, entry.1 ≠ id := by
  obtain ⟨entry, hentry, rfl⟩ := List.mem_map.mp hid
  obtain ⟨block, hblock, hid⟩ := exists_block_of_mem hentry
  obtain ⟨hfound, hadds⟩ := hgood block hblock
  obtain ⟨before, after, hsplit, hother⟩ := exists_split hdistinct hblock
  rw [LoraBlock.entries, hid] at hsplit
  rw [hid] at hother hfound
  cases hfound.symm.trans hn
  exact ⟨block.values, before, after, hadds, hsplit, hother⟩

/-- The LoRAs that are collected lie upstream of one sink, at loaders that run. A loader with one
LoRA adds at most one, and a loader with a list adds the LoRAs of its list that are on, without
others in between. -/
theorem loras_collected_once (graph : Graph) (settings : Settings) (sinks : List Node)
    (trail : Trail) :
    let search := Search.ofSettings graph .builtin settings
    let collected := ((search.collect .lora sinks).run trail).1
    (collected = [] ∨ ∃ sink ∈ sinks, ∀ entry ∈ collected, graph.Upstream sink.id entry.1 ∧
      ∃ node, graph.node? entry.1 = some node ∧ node.mode = .active ∧
        node.classType ∈ loraLoaderTypes ++ [loraListType]) ∧
    (∀ id node, graph.node? id = some node → node.classType ∈ loraLoaderTypes →
      (collected.map Prod.fst).count id ≤ 1) ∧
    ∀ id node, graph.node? id = some node → node.classType = loraListType →
      id ∈ collected.map Prod.fst →
      ∃ before after, collected = before ++ node.listedLoras.map (id, ·) ++ after ∧
        ∀ entry ∈ before ++ after, entry.1 ≠ id := by
  intro search collected
  rcases collect_eq_gathered sinks trail with hnone | ⟨sink, hsink, hsome⟩
  · have hempty : collected = [] := hnone
    rw [hempty]
    refine ⟨.inl rfl, fun _ _ _ _ => Nat.zero_le 1, ?_⟩
    intro id node _ _ hid
    cases hid
  obtain ⟨blocks, hdistinct, hblocks, hgood⟩ := exists_blocks_resolve graph settings sink.id
  have hcollected : collected = blocks.flatMap LoraBlock.entries := hsome.trans hblocks
  have hadded := fun block hblock => (hgood block hblock).2
  rw [hcollected]
  refine ⟨.inr ⟨sink, hsink, fun entry hentry => ?_⟩, ?_, ?_⟩
  · obtain ⟨block, hblock, hid⟩ := exists_block_of_mem hentry
    obtain ⟨hupstream, hfound, hadds⟩ := hgood block hblock
    rw [hid] at hupstream hfound
    exact ⟨hupstream, block.node, hfound, hadds.runs⟩
  · intro id node hn htype
    by_cases hid : id ∈ (blocks.flatMap LoraBlock.entries).map Prod.fst
    · obtain ⟨values, before, after, hadds, hsplit, hother⟩ :=
        exists_piece hdistinct hadded hn hid
      rw [hsplit, count_piece values hother]
      exact hadds.length_le htype
    · rw [List.count_eq_zero.mpr hid]
      exact Nat.zero_le 1
  · intro id node hn htype hid
    obtain ⟨values, before, after, hadds, hsplit, hother⟩ := exists_piece hdistinct hadded hn hid
    rw [hadds.eq_listedLoras htype] at hsplit
    exact ⟨before, after, hsplit, hother⟩

/-- A list in which the second LoRA is off. -/
def roundList : Node :=
  ⟨"5", "Power Lora Loader (rgthree)", none,
    [("model", .link ⟨"2", 0⟩),
      ("lora_1", .literal (.obj [("on", .bool true), ("lora", .str "outlines")])),
      ("lora_2", .literal (.obj [("on", .bool false), ("lora", .str "unused")]))],
    [.obj [("lora", .str "colours")]], .active⟩

def roundLoader : Node :=
  ⟨"2", "LoraLoader", none,
    [("model", .link ⟨"5", 0⟩), ("lora_name", .literal (.str "grain"))], [], .active⟩

def roundSampler : Node := ⟨"3", "KSampler", none, [("model", .link ⟨"5", 0⟩)], [], .active⟩

/-- Loaders that feed each other. -/
def roundGraph : Graph := .ofNodes [roundList, roundLoader, roundSampler, stackedSave]

theorem loras_collected_once_roundGraph :
    let collected := (((Search.ofSettings roundGraph .builtin {}).collect .lora
      [stackedSave]).run .empty).1
    ((roundGraph.node? "2" = some roundLoader ∧ roundLoader.classType ∈ loraLoaderTypes) ∧
      (collected.map Prod.fst).count "2" ≤ 1) ∧
    (roundGraph.node? "5" = some roundList ∧ roundList.classType = loraListType ∧
      "5" ∈ collected.map Prod.fst) ∧
    ∃ before after, collected = before ++
      [("5", .obj [("on", .bool true), ("lora", .str "outlines")]),
        ("5", .obj [("lora", .str "colours")])] ++ after ∧
      ∀ entry ∈ before ++ after, entry.1 ≠ "5" := by
  intro collected
  have hmem : "5" ∈ collected.map Prod.fst := by
    unfold collected
    rw [NodeLibrary.builtin_eq_catalogues]
    decide +kernel
  have h := loras_collected_once roundGraph {} [stackedSave] .empty
  exact ⟨⟨⟨rfl, by decide⟩, h.2.1 "2" roundLoader rfl (by decide)⟩, ⟨rfl, rfl, hmem⟩,
    h.2.2 "5" roundList rfl rfl hmem⟩

end Tracing

end ImageRecipe
