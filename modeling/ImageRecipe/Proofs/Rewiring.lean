import ImageRecipe.Proofs.SearchAgreement
import Mathlib.Data.List.Basic

/-!
# Links that lead elsewhere

What is done at a node is decided by the names of its inputs, by which of them
are linked, and by its literals and widgets. Where the links lead decides only
where the search goes on. So if the links of a graph are redirected, the plan at
a node is the old one with its links redirected, except that the control of a
switch must not be read behind a link.
-/
namespace ImageRecipe

namespace Workflow

/-- The input with its link, if it has one, leading elsewhere. -/
def Input.redirect (lead : Link → Link) : Input → Input
  | .literal value => .literal value
  | .link target => .link (lead target)

/-- The node with its links leading elsewhere. -/
def Node.redirect (lead : Link → Link) (node : Node) : Node :=
  { node with inputs := node.inputs.map fun input => (input.1, input.2.redirect lead) }

/-- The graph with the links of all its nodes leading elsewhere. -/
def Graph.redirect (lead : Link → Link) (graph : Graph) : Graph :=
  (⟨graph.nodes.map (·.redirect lead), []⟩ : Graph).connected

variable (lead : Link → Link)

@[simp] lemma Input.link?_redirect (input : Input) :
    (input.redirect lead).link? = input.link?.map lead := by
  cases input <;> rfl

@[simp] lemma Input.literal?_redirect (input : Input) :
    (input.redirect lead).literal? = input.literal? := by
  cases input <;> rfl

namespace Node

variable (node : Node) (name : String)

@[simp] lemma input?_redirect :
    (node.redirect lead).input? name = (node.input? name).map (·.redirect lead) := by
  simp only [input?, redirect, List.find?_map, Option.map_map]
  rfl

@[simp] lemma literal?_redirect : (node.redirect lead).literal? name = node.literal? name := by
  simp only [literal?, input?_redirect, Option.bind_map]
  cases node.input? name with
  | none => rfl
  | some input => exact Input.literal?_redirect lead input

@[simp] lemma link?_redirect : (node.redirect lead).link? name = (node.link? name).map lead := by
  simp only [link?, input?_redirect, Option.bind_map]
  cases node.input? name with
  | none => rfl
  | some input => exact Input.link?_redirect lead input

@[simp] lemma links_redirect :
    (node.redirect lead).links = node.links.map fun link => ⟨link.input, lead link.target⟩ := by
  simp only [links, redirect, List.filterMap_map, List.map_filterMap]
  refine List.filterMap_congr fun input _ => ?_
  obtain ⟨name, input⟩ := input
  cases input <;> rfl

@[simp] lemma firstLink?_redirect : (node.redirect lead).firstLink? =
    node.firstLink?.map fun link => ⟨link.input, lead link.target⟩ := by
  rw [firstLink?, links_redirect, List.head?_map]
  rfl

end Node

namespace Graph

variable (graph : Graph)

lemma node?_redirect (id : String) :
    (graph.redirect lead).node? id = (graph.node? id).map (·.redirect lead) := by
  change (graph.nodes.map (·.redirect lead)).find? _ = _
  rw [List.find?_map]
  rfl

lemma mem_nodes_redirect {node : Node} (h : node ∈ (graph.redirect lead).nodes) :
    ∃ original ∈ graph.nodes, original.redirect lead = node := List.mem_map.mp h

end Graph

end Workflow

open Workflow

@[simp] lemma Definition.bypassInput?_redirect (d : Definition) (lead : Link → Link) (node : Node)
    (slot : Option UInt32) :
    d.bypassInput? (node.redirect lead) slot = d.bypassInput? node slot := by
  have hfirst : (node.redirect lead).firstLink?.map (·.input) = node.firstLink?.map (·.input) := by
    rw [Node.firstLink?_redirect, Option.map_map]
    rfl
  have htyped : d.typedInput? (node.redirect lead) slot = d.typedInput? node slot := by
    have hfind : ∀ name, ((node.redirect lead).links.find? (·.input == name)).map (·.input) =
        (node.links.find? (·.input == name)).map (·.input) := by
      intro name
      rw [Node.links_redirect, List.find?_map, Option.map_map]
      rfl
    simp only [typedInput?, hfind]
  have hundeclared :
      d.undeclaredInput? (node.redirect lead) slot = d.undeclaredInput? node slot := by
    simp only [undeclaredInput?, htyped, hfirst]
  simp only [bypassInput?, hundeclared, hfirst, Node.link?_redirect, Option.isSome_map]

namespace Tracing

/-- The step with its link, if it follows one, leading elsewhere. -/
def Step.redirect (lead : Link → Link) : Step → Step
  | .answer value => .answer value
  | .follow target depth => .follow (lead target) depth

/-- The plan with the links that it follows leading elsewhere. -/
def Plan.redirect (lead : Link → Link) : Plan → Plan
  | .single s => .single (s.redirect lead)
  | .gather entries onward => .gather (entries.map (·.redirect lead)) (onward.redirect lead)
  | .join separator parts => .join separator (parts.map (·.redirect lead))
  | .scale factor base => .scale factor (base.redirect lead)

section Nodes

variable (lead : Link → Link) (node : Node) (slot : Option UInt32) (depth : Nat)

@[simp] lemma toInput_redirect (name : String) :
    Step.toInput (node.redirect lead) name depth =
      (Step.toInput node name depth).redirect lead := by
  unfold Step.toInput
  rw [node.input?_redirect, node.literal?_redirect]
  cases node.input? name with
  | none => rfl
  | some input => cases input <;> rfl

@[simp] lemma ownValue?_redirect (library : NodeLibrary) :
    ownValue? library (node.redirect lead) = ownValue? library node := by
  funext name
  rw [ownValue?, ownValue?, node.literal?_redirect]
  rfl

@[simp] lemma toWidget_redirect (library : NodeLibrary) (name : String) :
    Step.toWidget library (node.redirect lead) name depth =
      (Step.toWidget library node name depth).redirect lead := by
  unfold Step.toWidget
  rw [node.link?_redirect, ownValue?_redirect]
  cases node.link? name <;> rfl

@[simp] lemma through_redirect (definition : Option Definition) :
    Step.through definition (node.redirect lead) slot depth =
      (Step.through definition node slot depth).redirect lead := by
  cases definition with
  | none =>
    simp only [Step.through, node.firstLink?_redirect]
    cases node.firstLink? with
    | none => rfl
    | some link => exact toInput_redirect lead node depth link.input
  | some d =>
    simp only [Step.through, d.bypassInput?_redirect]
    cases d.bypassInput? node slot with
    | none => rfl
    | some input => exact toInput_redirect lead node depth input

lemma branches_redirect (stem : String) :
    branches stem (node.redirect lead) = branches stem node := by
  simp only [branches, Node.redirect, List.filterMap_map]
  congr 1
  refine List.filterMap_congr fun input _ => ?_
  obtain ⟨name, input⟩ := input
  cases input <;> rfl

lemma guess_redirect (param : Param) :
    Step.guess param (node.redirect lead) depth = (Step.guess param node depth).redirect lead := by
  have hhint : param.hints.findSome? (node.redirect lead).link? =
      (param.hints.findSome? node.link?).map lead := by
    induction param.hints with
    | nil => rfl
    | cons hint hints ih =>
      rw [List.findSome?_cons, List.findSome?_cons, node.link?_redirect]
      cases node.link? hint with
      | none => exact ih
      | some target => rfl
  have halias : (node.redirect lead).literal? = node.literal? :=
    funext (node.literal?_redirect lead)
  unfold Step.guess
  rw [halias, hhint, node.firstLink?_redirect]
  cases param.aliases.findSome? node.literal? with
  | some value => rfl
  | none =>
    cases param.hints.findSome? node.link? with
    | some target => rfl
    | none =>
      cases node.firstLink? with
      | some link => exact toInput_redirect lead node depth link.input
      | none => rfl

lemma enabledLoras_redirect : enabledLoras (node.redirect lead) = enabledLoras node := by
  simp only [enabledLoras, Node.redirect, List.filterMap_map]
  congr 2
  refine List.filterMap_congr fun input _ => ?_
  obtain ⟨name, input⟩ := input
  cases input <;> rfl

lemma offsetSeed?_redirect : offsetSeed? (node.redirect lead) = offsetSeed? node := by
  simp only [offsetSeed?, node.literal?_redirect]

lemma rulePlan_redirect (library : NodeLibrary) (d : Definition) (rule : Rule) :
    rulePlan library d (node.redirect lead) slot depth rule =
      (rulePlan library d node slot depth rule).redirect lead := by
  cases rule with
  | widget name gathers =>
    cases gathers with
    | false => simp only [rulePlan, toWidget_redirect, Plan.redirect]
    | true =>
      simp only [rulePlan, toWidget_redirect, through_redirect, Plan.redirect, List.map_cons,
        List.map_nil]
  | trace input => simp only [rulePlan, toInput_redirect, Plan.redirect]
  | literal name => simp only [rulePlan, ownValue?_redirect, Plan.redirect, Step.redirect]
  | extract extractor =>
    cases extractor with
    | joinWidgets names =>
      simp only [rulePlan, extractorPlan, Plan.redirect, List.map_map, Function.comp_def,
        toWidget_redirect]
    | joinInputs names =>
      simp only [rulePlan, extractorPlan, Plan.redirect, List.map_map, Function.comp_def,
        toInput_redirect]
    | concatenate =>
      simp only [rulePlan, extractorPlan, Plan.redirect, List.map_map, Function.comp_def,
        toWidget_redirect, separator, ownValue?_redirect]
    | loraList =>
      simp only [rulePlan, extractorPlan, Plan.redirect, List.map_map, Function.comp_def,
        toInput_redirect, enabledLoras_redirect, Step.redirect]
    | scaledSize =>
      simp only [rulePlan, extractorPlan, Plan.redirect, toInput_redirect, scaleFactor,
        ownValue?_redirect]

end Nodes

section Searches

variable {s t : Search} {lead : Link → Link} {param : Param} {node : Node}

/-- A switch goes through the same branch if its control has the same value. -/
lemma throughSwitch_redirect {switch : Switch} {depth : Nat}
    (hcontrol : control? t (node.redirect lead) switch.control depth =
      control? s node switch.control depth) :
    Step.throughSwitch t switch (node.redirect lead) depth =
      (Step.throughSwitch s switch node depth).redirect lead := by
  unfold Step.throughSwitch branch?
  rw [hcontrol, branches_redirect]
  split
  · exact toInput_redirect lead node depth _
  · rfl

/-- Two searches under the same rules make the same plan at a node and at the same node with its
links redirected, up to these links, if they find the same value for the control of a switch. -/
theorem planFor_redirect_of_control (hlibrary : s.library = t.library)
    (hheuristics : s.heuristics = t.heuristics) {depth : Nat}
    (hcontrol : ∀ d, s.library.get? node.classType = some d → ∀ switch, d.switch = some switch →
      control? t (node.redirect lead) switch.control depth =
        control? s node switch.control depth) (slot : Option UInt32) :
    planFor t param (node.redirect lead) slot depth =
      (planFor s param node slot depth).redirect lead := by
  have hclass : t.library.get? (node.redirect lead).classType = s.library.get? node.classType := by
    rw [hlibrary]
    rfl
  cases hs : node.mode.isSkipped with
  | true =>
    have hs' : (node.redirect lead).mode.isSkipped = true := hs
    rw [planFor_skipped hs, planFor_skipped hs', hclass, through_redirect]
    rfl
  | false =>
    have hs' : (node.redirect lead).mode.isSkipped = false := hs
    cases hd : s.library.get? node.classType with
    | none =>
      rw [planFor_unknown hs hd, planFor_unknown hs' (hclass.trans hd), unknownPlan, unknownPlan,
        hheuristics, offsetSeed?_redirect, guess_redirect]
      split
      · split <;> rfl
      · rfl
    | some d =>
      cases hr : d.rule? param with
      | some rule =>
        rw [planFor_ruled hs hd hr, planFor_ruled hs' (hclass.trans hd) hr, rulePlan_redirect,
          hlibrary]
      | none =>
        rw [planFor_unruled hs hd hr, planFor_unruled hs' (hclass.trans hd) hr, unruledPlan,
          unruledPlan]
        cases hw : d.switch with
        | some switch =>
          exact congrArg _ (throughSwitch_redirect (hcontrol d hd switch hw))
        | none =>
          by_cases hp : d.passThrough.isEmpty = true
          · simp only [hp, if_true]
            rfl
          · simp only [hp, Bool.false_eq_true, if_false, through_redirect]
            rfl

/-- So they do if no switch has a linked control there. -/
theorem planFor_redirect (hlibrary : s.library = t.library)
    (hheuristics : s.heuristics = t.heuristics)
    (hfree : ∀ d, s.library.get? node.classType = some d → ∀ switch, d.switch = some switch →
      node.link? switch.control = none) (slot : Option UInt32) (depth : Nat) :
    planFor t param (node.redirect lead) slot depth =
      (planFor s param node slot depth).redirect lead := by
  refine planFor_redirect_of_control hlibrary hheuristics (fun d hd switch hs => ?_) slot
  simp only [control?, node.link?_redirect, hfree d hd switch hs, Option.map_none,
    ownValue?_redirect, hlibrary]

end Searches

end Tracing

end ImageRecipe
