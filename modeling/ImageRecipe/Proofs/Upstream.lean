import ImageRecipe.NodeLibrary.Builtin
import ImageRecipe.Proofs.SearchAgreement
import Mathlib.Logic.Relation

/-!
# What lies upstream

A search goes from a node against the direction of the edges, and so does the
reading of a switch's control. Nothing but the nodes that are reached in this
way has a say in what a search finds and gathers: other nodes may be there or
not, and the nodes may have been added in any order.
-/
namespace ImageRecipe

namespace Workflow.Graph

/-- A node of the graph has an input that is linked to `source`. -/
def LinksTo (graph : Graph) (id source : String) : Prop :=
  ∃ node, graph.node? id = some node ∧ ∃ target ∈ node.targets, target.source = source

/-- What is reached from `start` by following linked inputs, `start` itself included. -/
def Upstream (graph : Graph) (start : String) : String → Prop :=
  Relation.ReflTransGen graph.LinksTo start

/-- Where the value of a control behind a link to `id` is looked for: at the node that is there,
and behind its first link as long as no plain value was found. -/
inductive Consults (graph : Graph) : String → Node → Prop
  | here {id : String} {node : Node} (hn : graph.node? id = some node) : graph.Consults id node
  | behind {id : String} {first node : Node} {link : NamedLink} (hn : graph.node? id = some first)
      (hv : Tracing.plainValue? first = none) (hl : first.firstLink? = some link)
      (hw : graph.Consults link.target.source node) : graph.Consults id node

variable {graph : Graph} {start id : String} {node : Node}

lemma Upstream.source (h : graph.Upstream start id) (hn : graph.node? id = some node)
    {target : Link} (ht : target ∈ node.targets) : graph.Upstream start target.source :=
  h.tail ⟨node, hn, target, ht, rfl⟩

lemma Upstream.firstLink (hn : graph.node? start = some node) {link : NamedLink}
    (hl : node.firstLink? = some link) (h : graph.Upstream link.target.source id) :
    graph.Upstream start id :=
  h.head ⟨node, hn, link.target, Node.mem_targets_of_firstLink? hl, rfl⟩

lemma Consults.node?_eq (h : graph.Consults start node) : graph.node? node.id = some node := by
  induction h with
  | here hn => rw [id_of_node? hn, hn]
  | behind _ _ _ _ ih => exact ih

lemma Consults.upstream (h : graph.Consults start node) : graph.Upstream start node.id := by
  induction h with
  | here hn =>
    rw [id_of_node? hn]
    exact .refl
  | behind hn _ hl _ ih => exact .firstLink hn hl ih

end Workflow.Graph

namespace Tracing

open Workflow

/-- A node where the value of a control is looked for answers as another does: it has the same plain
value, or has none and the same first link. -/
structure AnswersAs (node other : Node) : Prop where
  value_eq : plainValue? node = plainValue? other
  link_eq : plainValue? other = none → node.firstLink? = other.firstLink?

variable {graph other : Graph} {start : String}

/-- The plain value behind a control is the same in two graphs, if all nodes where it is looked for
in one of them have counterparts in the other that answer as they do. Induction on the nodes that
may still be asked. -/
lemma plainValueBehind?_congr {source : String}
    (hnone : ∀ id, graph.Upstream source id → graph.node? id = none → other.node? id = none)
    (h : ∀ node, graph.Consults source node →
      ∃ counterpart, other.node? node.id = some counterpart ∧ AnswersAs counterpart node)
    (steps : Nat) :
    plainValueBehind? other steps source = plainValueBehind? graph steps source := by
  induction steps generalizing source with
  | zero => rfl
  | succ steps ih =>
    rw [plainValueBehind?, plainValueBehind?]
    cases hn : graph.node? source with
    | none => rw [hnone source .refl hn]
    | some node =>
      obtain ⟨counterpart, hc, hvalue, hlink⟩ := h node (.here hn)
      rw [Graph.id_of_node? hn] at hc
      simp only [hc, hvalue]
      cases hv : plainValue? node with
      | some value => rfl
      | none =>
        simp only [hlink hv]
        cases hl : node.firstLink? with
        | none => rfl
        | some link =>
          exact ih (fun id hid => hnone id (.firstLink hn hl hid))
            fun asked ha => h asked (.behind hn hv hl ha)

/-- The plain value behind a control is read upstream. -/
lemma plainValueBehind?_of_upstream
    (h : ∀ id, graph.Upstream start id → graph.node? id = other.node? id) (steps : Nat)
    {source : String} (hs : graph.Upstream start source) :
    plainValueBehind? graph steps source = plainValueBehind? other steps source := by
  refine (plainValueBehind?_congr (fun id hid hn => ?_) (fun node hc => ?_) steps).symm
  · rw [← h id (hs.trans hid), hn]
  · exact ⟨node, (h node.id (hs.trans hc.upstream)).symm.trans hc.node?_eq, rfl, fun _ => rfl⟩

lemma control?_of_upstream (search : Search)
    (h : ∀ id, search.graph.Upstream start id → search.graph.node? id = other.node? id)
    {id : String} {node : Node} (hid : search.graph.Upstream start id)
    (hn : search.graph.node? id = some node) (name : String) (depth : Nat) :
    control? search node name depth = control? { search with graph := other } node name depth := by
  unfold control?
  cases hl : node.link? name with
  | none => rfl
  | some target =>
    exact plainValueBehind?_of_upstream h _ (hid.source hn (Node.mem_targets_of_link? hl))

lemma agreesOn_upstream (search : Search)
    (h : ∀ id, search.graph.Upstream start id → search.graph.node? id = other.node? id)
    (param : Param) :
    search.AgreesOn { search with graph := other } param (search.graph.Upstream start) where
  maxDepth_eq := rfl
  plan?_eq := by
    intro id hid slot depth
    simp only [Search.plan?]
    rw [← h id hid]
    cases hn : search.graph.node? id with
    | none => rfl
    | some node =>
      have hplan : planFor search param node slot depth =
          planFor { search with graph := other } param node slot depth :=
        planFor_congr rfl rfl fun _ _ _ _ switch _ =>
          control?_of_upstream search h hid hn switch.control depth
      exact congrArg some hplan
  closed := by
    intro id hid node hn target ht
    exact hid.source hn ht

/-- Where two graphs have the same nodes upstream of `start`, a search from there finds the same
value and leaves the same trail in both of them: it visits the same nodes and gathers the same
values, in the same order. -/
theorem run_resolve_of_upstream (graph other : Graph) (library : NodeLibrary)
    (settings : Settings) (start : String) (param : Param)
    (h : ∀ id, graph.Upstream start id → graph.node? id = other.node? id) (trail : Trail) :
    ((Search.ofSettings graph library settings).resolve start param).run trail =
      ((Search.ofSettings other library settings).resolve start param).run trail := by
  have hagrees := agreesOn_upstream (Search.ofSettings graph library settings) h param
  exact congrArg (·.run trail) (hagrees.resolve_eq Relation.ReflTransGen.refl)

/-- The number of steps, in a node of its own. -/
def stepCount : Node :=
  ⟨"1", "PrimitiveInt", none, [("value", .literal (.num (.int 20)))], [], .active⟩

/-- A sampler whose model is not there. -/
def countedSampler : Node :=
  ⟨"2", "KSampler", none, [("model", .link ⟨"0", 0⟩), ("steps", .link ⟨"1", 0⟩)], [], .active⟩

def saveOfCounted : Node := ⟨"3", "SaveImage", none, [("images", .link ⟨"2", 0⟩)], [], .active⟩

theorem run_resolve_countedSampler :
    (∀ id, (Graph.ofNodes [stepCount, countedSampler]).Upstream "2" id →
      (Graph.ofNodes [stepCount, countedSampler]).node? id =
        (Graph.ofNodes [saveOfCounted, countedSampler, stepCount]).node? id) ∧
    ((Search.ofSettings (.ofNodes [stepCount, countedSampler]) .builtin {}).resolve "2"
        .steps).run .empty =
      ((Search.ofSettings (.ofNodes [saveOfCounted, countedSampler, stepCount]) .builtin
        {}).resolve "2" .steps).run .empty := by
  have hids : ∀ id, (Graph.ofNodes [stepCount, countedSampler]).Upstream "2" id →
      id = "0" ∨ id = "1" ∨ id = "2" := by
    intro id h
    induction h with
    | refl => simp
    | tail _ hlink ih =>
      obtain ⟨node, hn, target, ht, rfl⟩ := hlink
      rcases ih with rfl | rfl | rfl
      · cases hn
      · cases hn
        cases ht
      · cases hn
        rcases List.mem_cons.mp ht with rfl | ht
        · simp
        · rw [List.mem_singleton.mp ht]
          simp
  have h : ∀ id, (Graph.ofNodes [stepCount, countedSampler]).Upstream "2" id →
      (Graph.ofNodes [stepCount, countedSampler]).node? id =
        (Graph.ofNodes [saveOfCounted, countedSampler, stepCount]).node? id := by
    intro id hid
    rcases hids id hid with rfl | rfl | rfl <;> rfl
  exact ⟨h, run_resolve_of_upstream _ _ _ _ _ _ h _⟩

end Tracing

end ImageRecipe
