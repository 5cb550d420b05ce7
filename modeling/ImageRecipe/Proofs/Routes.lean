import ImageRecipe.Proofs.BuiltinLibrary
import ImageRecipe.Proofs.SearchHistory
import ImageRecipe.Proofs.SearchMachine
import ImageRecipe.Proofs.SinkOrder
import Mathlib.Algebra.Ring.Nat
import Mathlib.Data.List.Basic

/-!
# Routes

Where every plan on the way goes on in one direction, with a value noted or not,
the way from a node is a route: it is known beforehand which nodes a search
visits, what it gathers and what it finds. Routes along a chain of nodes are put
together from what one node of the chain does. A workflow with a single sink
says what lies at the ends of the routes from there.
-/
namespace ImageRecipe

namespace Tracing

open Workflow

/-- The plan that follows a link, with a value noted before or not. -/
def Plan.onward (noted : Option Json) (target : Link) (behind : Nat) : Plan :=
  match noted with
  | none => .single (.follow target behind)
  | some value => .gather [.answer (some value)] (.follow target behind)

/-- The way of a search from the node `id` on: the nodes that it visits, what it gathers at them,
and what it finds in the end. -/
inductive Search.Route (search : Search) (param : Param) :
    String → Option UInt32 → Nat → List String → List (String × Json) → Option Json → Prop
  | ends {id : String} {slot : Option UInt32} {depth : Nat} {node : Node} {value : Option Json}
      (hn : search.graph.node? id = some node) (hd : depth ≤ search.maxDepth)
      (hp : planFor search param node slot depth = .single (.answer value)) :
      search.Route param id slot depth [id] [] value
  | onward {id : String} {slot : Option UInt32} {depth behind : Nat} {node : Node} {target : Link}
      {noted : Option Json} {path : List String} {gathered : List (String × Json)}
      {value : Option Json} (hn : search.graph.node? id = some node)
      (hd : depth ≤ search.maxDepth)
      (hp : planFor search param node slot depth = .onward noted target behind)
      (hr : search.Route param target.source (some target.slot) behind path gathered value) :
      search.Route param id slot depth (id :: path) ((noted.map (id, ·)).toList ++ gathered) value

namespace Search.Route

variable {search : Search} {param : Param} {id : String} {slot : Option UInt32} {depth : Nat}
  {path : List String} {gathered : List (String × Json)} {value : Option Json}

lemma depth_le (h : search.Route param id slot depth path gathered value) :
    depth ≤ search.maxDepth := by
  cases h <;> assumption

/-- A plan that goes on in one direction notes its value and follows its link. -/
lemma run_onward (visit : Link → Nat → Walk (Option Json)) (id : String) (noted : Option Json)
    (target : Link) (behind : Nat) (trail : Trail) :
    (Walk.carryOut visit id (.onward noted target behind)).run trail =
      (visit target behind).run
        { trail with gathered := trail.gathered ++ (noted.map (id, ·)).toList } := by
  cases noted with
  | none =>
    rw [Plan.onward, Walk.run_carryOut_single, Walk.run_step_follow, Option.map_none,
      Option.toList_none, List.append_nil]
  | some value =>
    rw [Plan.onward, run_gather_cons]
    rfl

/-- A visit with room for a route goes along it if none of its nodes was visited. Induction on the
route. -/
theorem run_visit (h : search.Route param id slot depth path gathered value) {room : Nat}
    {trail : Trail} (hnodup : path.Nodup) (hfresh : ∀ other ∈ path, other ∉ trail.visited)
    (hlen : path.length ≤ room) :
    (search.visit param room id slot depth).run trail =
      (value, ⟨path.reverse ++ trail.visited, trail.gathered ++ gathered⟩) := by
  induction h generalizing room trail with
  | @ends id slot depth node value hn hd hp =>
    obtain ⟨room, rfl⟩ : ∃ r, room = r + 1 := ⟨room - 1, by simp at hlen; omega⟩
    have hr : ¬ search.Refuses id depth trail :=
      not_or.mpr ⟨Nat.not_lt.mpr hd, hfresh id List.mem_cons_self⟩
    rw [run_visit_single search param hr hn hp, Walk.run_step_answer]
    simp [Trail.enter]
  | @onward id slot depth behind node target noted path gathered value hn hd hp _ ih =>
    obtain ⟨room, rfl⟩ : ∃ r, room = r + 1 := ⟨room - 1, by simp at hlen; omega⟩
    have hr : ¬ search.Refuses id depth trail :=
      not_or.mpr ⟨Nat.not_lt.mpr hd, hfresh id List.mem_cons_self⟩
    rw [List.nodup_cons] at hnodup
    have hfresh' : ∀ other ∈ path, other ∉ id :: trail.visited := by
      intro other hother
      rw [List.mem_cons, not_or]
      refine ⟨?_, hfresh other (List.mem_cons_of_mem _ hother)⟩
      rintro rfl
      exact hnodup.1 hother
    rw [run_visit_found search param hr hn, hp, run_onward, visitBehind,
      ih hnodup.2 hfresh' (by simpa using hlen)]
    simp [Trail.enter]

/-- What a search from the beginning of a route finds and leaves. -/
theorem run_resolve {start : String} (h : search.Route param start none 0 path gathered value)
    (hnodup : path.Nodup) (hlen : path.length ≤ search.maxPath) :
    (search.resolve start param).run .empty = (value, ⟨path.reverse, gathered⟩) := by
  rw [Search.run_resolve, h.run_visit hnodup (fun _ _ => List.not_mem_nil) hlen]
  simp [Trail.empty]

end Search.Route

/-- A search over two links: the first two nodes lead on, and the answer is at the third. -/
theorem Search.value_resolve_of_two_links (search : Search) (param : Param)
    {start middle last : String} {slot slot' : UInt32} {first second third : Node}
    {value : Option Json} (hdepth : 2 ≤ search.maxDepth) (hmiddle : middle ≠ start)
    (hlast : last ≠ middle ∧ last ≠ start)
    (hn₀ : search.graph.node? start = some first)
    (hp₀ : planFor search param first none 0 = .single (.follow ⟨middle, slot⟩ 1))
    (hn₁ : search.graph.node? middle = some second)
    (hp₁ : planFor search param second (some slot) 1 = .single (.follow ⟨last, slot'⟩ 2))
    (hn₂ : search.graph.node? last = some third)
    (hp₂ : planFor search param third (some slot') 2 = .single (.answer value)) :
    ((search.resolve start param).run .empty).1 = value := by
  have hfirst : planFor search param first none 0 = .onward none ⟨middle, slot⟩ 1 := hp₀
  have hsecond : planFor search param second (some slot) 1 = .onward none ⟨last, slot'⟩ 2 := hp₁
  have hroute : search.Route param start none 0 [start, middle, last] [] value :=
    .onward hn₀ (Nat.zero_le _) hfirst (.onward hn₁ (by omega) hsecond (.ends hn₂ hdepth hp₂))
  have hnodup : [start, middle, last].Nodup := by
    simp [hmiddle.symm, hlast.1.symm, hlast.2.symm]
  have hlen : [start, middle, last].length ≤ search.maxPath := by
    rw [maxPath]
    simp
    omega
  rw [hroute.run_resolve hnodup hlen]

end Tracing

namespace Workflow

/-- A widget that is not linked has a value of its own, a literal or a positional one. -/
structure Node.Holds (library : NodeLibrary) (node : Node) (name : String) (value : Json) :
    Prop where
  unlinked : node.link? name = none
  own : Tracing.ownValue? library node name = some value

namespace Graph

/-- The graph has a node of the given type under an id, and the node runs. -/
structure RunsAt (graph : Graph) (id classType : String) (node : Node) : Prop where
  found : graph.node? id = some node
  isOfType : node.classType = classType
  runs : node.mode = .active

/-- The graph has a node of the given type under an id. -/
def HasType (graph : Graph) (id classType : String) : Prop :=
  ∃ node, graph.node? id = some node ∧ node.classType = classType

lemma RunsAt.hasType {graph : Graph} {id classType : String} {node : Node}
    (h : graph.RunsAt id classType node) : graph.HasType id classType :=
  ⟨node, h.found, h.isOfType⟩

lemma HasType.unique {graph : Graph} {id classType classType' : String}
    (h : graph.HasType id classType) (h' : graph.HasType id classType') :
    classType = classType' := by
  obtain ⟨node, hn, rfl⟩ := h
  obtain ⟨node', hn', rfl⟩ := h'
  cases hn.symm.trans hn'
  rfl

lemma exists_hasType_of_mem {graph : Graph} {ids types : List String} {id : String}
    (h : List.Forall₂ graph.HasType ids types) (hmem : id ∈ ids) :
    ∃ classType ∈ types, graph.HasType id classType := by
  induction h with
  | nil => cases hmem
  | cons hid _ ih =>
    rcases List.mem_cons.mp hmem with rfl | hmem
    · exact ⟨_, List.mem_cons_self, hid⟩
    · obtain ⟨classType, htype, hhas⟩ := ih hmem
      exact ⟨classType, List.mem_cons_of_mem _ htype, hhas⟩

/-- Nodes of different types are different nodes. -/
lemma nodup_of_hasType {graph : Graph} {ids types : List String}
    (h : List.Forall₂ graph.HasType ids types) (htypes : types.Nodup) : ids.Nodup := by
  induction h with
  | nil => exact List.nodup_nil
  | cons hid hids ih =>
    rw [List.nodup_cons] at htypes ⊢
    refine ⟨fun hmem => ?_, ih htypes.2⟩
    obtain ⟨classType, htype, hhas⟩ := exists_hasType_of_mem hids hmem
    exact htypes.1 (hid.unique hhas ▸ htype)

/-- From the link `first` on, each node of a list is what the link before it leads to, and is left
along the next link, the last one along `last`. -/
inductive Chain (graph : Graph) (leads : Link → Node → Link → Prop) :
    Link → List Node → Link → Prop
  | nil {link : Link} : graph.Chain leads link [] link
  | cons {first next last : Link} {node : Node} {nodes : List Node}
      (hn : graph.node? first.source = some node) (hl : leads first node next)
      (hc : graph.Chain leads next nodes last) : graph.Chain leads first (node :: nodes) last

variable {graph : Graph} {leads : Link → Node → Link → Prop} {first last : Link}
  {nodes : List Node} {node : Node}

lemma Chain.node?_of_mem (h : graph.Chain leads first nodes last) (hmem : node ∈ nodes) :
    graph.node? node.id = some node := by
  induction h with
  | nil => cases hmem
  | cons hn _ _ ih =>
    rcases List.mem_cons.mp hmem with rfl | hmem
    · rw [id_of_node? hn, hn]
    · exact ih hmem

lemma Chain.leads_of_mem (h : graph.Chain leads first nodes last) (hmem : node ∈ nodes) :
    ∃ link next, leads link node next := by
  induction h with
  | nil => cases hmem
  | @cons first next last other nodes _ hl _ ih =>
    rcases List.mem_cons.mp hmem with rfl | hmem
    · exact ⟨first, next, hl⟩
    · exact ih hmem

/-- The nodes of a chain and nodes of other types around it, of one type each, are different. -/
lemma Chain.nodup (h : graph.Chain leads first nodes last) (hdistinct : (nodes.map Node.id).Nodup)
    {types : List String} (htypes : ∀ node ∈ nodes, node.classType ∈ types)
    {before after others : List String}
    (hothers : List.Forall₂ graph.HasType (before ++ after) others) (hnodup : others.Nodup)
    (hapart : ∀ classType ∈ others, classType ∉ types) :
    (before ++ (nodes.map Node.id ++ after)).Nodup := by
  have hperm : (before ++ (nodes.map Node.id ++ after)).Perm
      (nodes.map Node.id ++ (before ++ after)) := List.perm_append_comm_assoc _ _ _
  rw [hperm.nodup_iff, List.nodup_append]
  refine ⟨hdistinct, nodup_of_hasType hothers hnodup, ?_⟩
  rintro id hid _ hother rfl
  obtain ⟨node, hnode, rfl⟩ := List.mem_map.mp hid
  obtain ⟨classType, hclass, hhas⟩ := exists_hasType_of_mem hothers hother
  have hsame : node.classType = classType :=
    HasType.unique ⟨node, h.node?_of_mem hnode, rfl⟩ hhas
  exact hapart classType hclass (hsame ▸ htypes node hnode)

end Graph

end Workflow

namespace Tracing

open Workflow

variable {search : Search} {param : Param} {leads : Link → Node → Link → Prop}
  {first last : Link} {nodes : List Node}

/-- If every node of a chain, however deep it is, passes a search on along the chain, what lies
behind the chain lies behind its first link. Induction on the chain; `cost` says by how much each
node takes the search deeper and `noted` what it notes there. -/
theorem Search.Route.of_chain {cost : Node → Nat} {noted : Node → Option Json}
    (hleads : ∀ first node next depth, leads first node next → 1 ≤ depth →
      planFor search param node (some first.slot) depth =
        .onward (noted node) next (depth + cost node))
    (hc : search.graph.Chain leads first nodes last) {depth : Nat} {path : List String}
    {gathered : List (String × Json)} {value : Option Json} (hpos : 1 ≤ depth)
    (hr : search.Route param last.source (some last.slot) (depth + (nodes.map cost).sum) path
      gathered value) :
    search.Route param first.source (some first.slot) depth (nodes.map Node.id ++ path)
      (nodes.filterMap (fun node => (noted node).map (node.id, ·)) ++ gathered) value := by
  induction hc generalizing depth with
  | nil => exact hr
  | @cons first next last node nodes hn hl _ ih =>
    rw [List.map_cons, List.sum_cons, ← Nat.add_assoc] at hr
    have hrest := ih (Nat.le_add_right_of_le hpos) hr
    have hdepth : depth ≤ search.maxDepth := by
      have := hr.depth_le
      omega
    have hroute := Search.Route.onward hn hdepth (hleads first node next depth hl hpos) hrest
    rw [← Graph.id_of_node? hn] at hroute ⊢
    have hgathered : (node :: nodes).filterMap (fun node => (noted node).map (node.id, ·)) =
        ((noted node).map (node.id, ·)).toList ++
          nodes.filterMap (fun node => (noted node).map (node.id, ·)) := by
      cases h : noted node with
      | none => simp [h]
      | some value => simp [h]
    rw [hgathered, List.append_assoc]
    exact hroute

section Nodes

variable {node : Node} {slot : Option UInt32} {depth : Nat} {classType name : String}
  {value : Json} {target : Link}

lemma toInput_eq_follow (h : node.link? name = some target) :
    Step.toInput node name depth = .follow target (depth + 1) := by
  obtain ⟨input, hinput, hlink⟩ := Option.bind_eq_some_iff.mp h
  cases input with
  | literal value => cases hlink
  | link other =>
    cases hlink
    rw [Step.toInput, hinput]

lemma toWidget_of_holds (h : node.Holds search.library name value) :
    Step.toWidget search.library node name depth = .answer (some value) := by
  rw [Step.toWidget, h.unlinked, h.own]

section Ruled

variable (hmode : node.mode = .active) (htype : node.classType = classType)
include hmode htype

/-- A node that holds the parameter in a widget ends the search. -/
lemma planFor_held (hr : search.library.rule? classType param = some (.widget name false))
    (h : node.Holds search.library name value) :
    planFor search param node slot depth = .single (.answer (some value)) := by
  obtain ⟨d, hd, hr⟩ := Option.bind_eq_some_iff.mp hr
  rw [planFor_ruled (by rw [hmode]; rfl) (htype ▸ hd) hr, rulePlan, toWidget_of_holds h]

/-- A node with the parameter behind one of its inputs sends the search on. -/
lemma planFor_traced (hr : search.library.rule? classType param = some (.trace name))
    (hl : node.link? name = some target) :
    planFor search param node slot depth = .onward none target (depth + 1) := by
  obtain ⟨d, hd, hr⟩ := Option.bind_eq_some_iff.mp hr
  rw [planFor_ruled (by rw [hmode]; rfl) (htype ▸ hd) hr, rulePlan, toInput_eq_follow hl,
    Plan.onward]

/-- Nothing is found at a node that neither says where the parameter is nor passes anything
through. -/
lemma planFor_deadEnd {d : Definition} (hd : search.library.get? classType = some d)
    (hr : d.rule? param = none) (hs : d.switch = none) (hp : d.passThrough = []) :
    planFor search param node slot depth = .single (.answer none) := by
  rw [planFor_unruled (by rw [hmode]; rfl) (htype ▸ hd) hr, unruledPlan, hs, hp]
  rfl

end Ruled

end Nodes

variable {graph : Graph} {library : NodeLibrary} {settings : Settings}

lemma value_first_single {α : Type} (read : Json → Option α) (sink : Node) (trail : Trail) :
    ((search.first param read [sink]).run trail).1 =
      (((search.resolve sink.id param).run .empty).1).bind read := by
  rw [value_first_from read [sink] trail .empty, Search.run_first_cons]
  cases ((search.resolve sink.id param).run .empty).1.bind read <;> rfl

lemma value_collect_single (sink : Node) (trail : Trail) :
    ((search.collect param [sink]).run trail).1 =
      ((search.resolve sink.id param).run .empty).2.gathered := by
  have hclear : (search.resolve sink.id param).run { Trail.empty with gathered := [] } =
      (search.resolve sink.id param).run .empty := rfl
  rw [value_collect_from [sink] trail .empty, Search.run_collect_cons, hclear]
  dsimp only
  split
  · rename_i h
    exact (List.isEmpty_iff.mp h).symm
  · rfl

lemma value_return {α β : Type} (walk : Walk α) (f : α → β) (trail : Trail) :
    ((walk >>= fun a => pure (f a)).run trail).1 = f (walk.run trail).1 := rfl

/-- The facts of a graph with a single sink. -/
theorem facts_of_single (sink : Node) (h : sinks library graph = [sink]) :
    let search := Search.ofSettings graph library settings
    let found (param : Param) := ((search.resolve sink.id param).run .empty).1
    graph.facts library settings = {
      positivePrompt := (found .prompt).bind textValue?
      negativePrompt := (found .negativePrompt).bind textValue?
      baseModel := (found .model).bind textValue?
      vae := (found .vae).bind textValue?
      seed := (found .seed).bind Seed.ofJson?
      steps := (found .steps).bind naturalValue?
      cfg := (found .cfg).bind Json.looseFloat?
      samplerName := (found .sampler).bind textValue?
      scheduler := (found .scheduler).bind textValue?
      denoise := (found .denoise).bind Json.looseFloat?
      width := (found .width).bind naturalValue?
      height := (found .height).bind naturalValue?
      loras :=
        ((search.resolve sink.id .lora).run .empty).2.gathered.filterMap (lora? search) } := by
  intro search found
  let facts := ((search.facts [sink]).run .empty).1
  have hfacts : graph.facts library settings = facts := by
    rw [Graph.facts, h]
  rw [hfacts]
  refine (Facts.eq_of_taking_eq facts fun param => ?_).symm
  rw [← value_lookUp [sink] _ param .empty]
  cases param <;>
    simp only [Search.lookUp, value_return, value_first_single, value_collect_single, found]

end Tracing

end ImageRecipe
