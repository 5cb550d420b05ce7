import ImageRecipe.Proofs.AuthoredWorkflow
import ImageRecipe.Proofs.VisitEquations

/-!
# Nodes from the two saved forms

A node has named literals if it comes from the API form, and positional widget
values if it comes from the UI form. A search makes the same plan for both:
links are the same, every widget has the same value, and what the built-in
descriptions look for behind an input is never the literal of a widget.
-/
namespace ImageRecipe

/-- The inputs that a rule looks behind. -/
def Rule.traced : Rule → List String
  | .trace input => [input]
  | .extract (.joinInputs names) => names
  | .extract .loraList => ["model"]
  | .extract .scaledSize => ["samples"]
  | _ => []

/-- Whether a description keeps its widgets apart from what is linked: no rule looks behind a
widget, a list of LoRAs leaves no room for widgets, and no branch of a switch is a widget. -/
def Definition.keepsWidgetsApart (d : Definition) : Bool :=
  (d.rules.all fun entry => entry.2.traced.all fun input => !d.widgets.contains input) &&
    (d.rules.all fun entry => entry.2 != .extract .loraList || d.widgets.isEmpty) &&
    d.switch.all fun switch =>
      d.widgets.all fun widget => (Tracing.branchNumber? switch.stem widget).isNone

theorem NodeLibrary.keepsWidgetsApart_of_builtin {classType : String} {d : Definition}
    (h : builtin.get? classType = some d) : d.keepsWidgetsApart = true := by
  have hall : ∀ d ∈ catalogues, d.keepsWidgetsApart = true := by decide +kernel
  exact hall d (mem_catalogues h)

namespace Definition

variable {d : Definition} {param : Param} {rule : Rule}

lemma mem_rules_of_rule? (h : d.rule? param = some rule) : ∃ entry ∈ d.rules, entry.2 = rule := by
  obtain ⟨entry, he, hr⟩ := Option.map_eq_some_iff.mp h
  exact ⟨entry, List.mem_of_find?_eq_some he, hr⟩

lemma notMem_widgets_of_traced (hd : d.keepsWidgetsApart = true) (h : d.rule? param = some rule)
    {input : String} (hi : input ∈ rule.traced) : input ∉ d.widgets := by
  obtain ⟨entry, he, rfl⟩ := mem_rules_of_rule? h
  simp only [keepsWidgetsApart, Bool.and_eq_true, List.all_eq_true] at hd
  simpa using hd.1.1 entry he input hi

lemma widgets_eq_nil_of_loraList (hd : d.keepsWidgetsApart = true)
    (h : d.rule? param = some (.extract .loraList)) : d.widgets = [] := by
  obtain ⟨entry, he, hr⟩ := mem_rules_of_rule? h
  simp only [keepsWidgetsApart, Bool.and_eq_true, List.all_eq_true] at hd
  simpa [hr] using hd.1.2 entry he

lemma branchNumber?_of_mem_widgets (hd : d.keepsWidgetsApart = true) {switch : Switch}
    (hs : d.switch = some switch) {widget : String} (hw : widget ∈ d.widgets) :
    Tracing.branchNumber? switch.stem widget = none := by
  simp only [keepsWidgetsApart, Bool.and_eq_true, hs, Option.all_some, List.all_eq_true] at hd
  simpa using hd.2 widget hw

end Definition

namespace Workflow.AuthoredNode

variable (node : AuthoredNode) (name : String)

/-- The link of an input. -/
def link? : Option Link :=
  (node.input? name).bind fun input => input.plain.link?

/-- The literal of an input other than null. -/
def literal? : Option Json :=
  (node.input? name).bind fun input => input.plain.literal?

/-- Names are distinct, so an input is found under its name. -/
lemma input?_of_mem {input : AuthoredInput} (h : (name, input) ∈ node.inputs) :
    node.input? name = some input := by
  unfold input?
  cases hf : node.inputs.find? (·.1 == name) with
  | none => exact absurd (beq_self_eq_true name) (List.find?_eq_none.mp hf _ h)
  | some entry =>
    have hname : entry.1 = name := by simpa using List.find?_some hf
    have heq : entry = (name, input) :=
      List.inj_on_of_nodup_map node.names_nodup (List.mem_of_find?_eq_some hf) h hname
    rw [heq]
    rfl

lemma mem_of_input? {input : AuthoredInput} (h : node.input? name = some input) :
    (name, input) ∈ node.inputs := by
  obtain ⟨entry, he, rfl⟩ := Option.map_eq_some_iff.mp h
  have hname : entry.1 = name := by simpa using List.find?_some he
  exact hname ▸ List.mem_of_find?_eq_some he

lemma link?_of_mem_links {link : AuthoredLink} (h : link ∈ node.links) :
    node.link? link.name = some link.target := by
  rw [link?, node.input?_of_mem _ (mem_links.mp h)]
  rfl

lemma exists_mem_links {target : Link} (h : node.link? name = some target) :
    ∃ link ∈ node.links, link.name = name ∧ link.target = target := by
  obtain ⟨input, hi, ht⟩ := Option.bind_eq_some_iff.mp h
  cases input with
  | literal value => cases ht
  | link number other =>
    cases ht
    exact ⟨⟨name, number, target⟩, mem_links.mpr (node.mem_of_input? name hi), rfl, rfl⟩

@[simp] lemma input?_apiNode :
    node.apiNode.input? name = (node.input? name).map AuthoredInput.plain := by
  simp only [Node.input?, apiNode, input?, List.find?_map, Option.map_map]
  rfl

@[simp] lemma input?_uiNode :
    node.uiNode.input? name = (node.link? name).map Input.link := by
  simp only [Node.input?, uiNode, List.find?_map, Option.map_map]
  cases hf : node.links.find? ((·.1 == name) ∘ fun link => (link.name, Input.link link.target)) with
  | some link =>
    have hname : link.name = name := by simpa using List.find?_some hf
    rw [← hname, node.link?_of_mem_links (List.mem_of_find?_eq_some hf)]
    rfl
  | none =>
    cases hl : node.link? name with
    | none => rfl
    | some target =>
      obtain ⟨link, hmem, hname, -⟩ := node.exists_mem_links name hl
      exact absurd (beq_iff_eq.mpr hname) (List.find?_eq_none.mp hf link hmem)

@[simp] lemma link?_apiNode : node.apiNode.link? name = node.link? name := by
  rw [Node.link?, input?_apiNode, link?, Option.bind_map]
  rfl

@[simp] lemma link?_uiNode : node.uiNode.link? name = node.link? name := by
  rw [Node.link?, input?_uiNode]
  cases node.link? name <;> rfl

@[simp] lemma literal?_apiNode : node.apiNode.literal? name = node.literal? name := by
  rw [Node.literal?, input?_apiNode, literal?, Option.bind_map]
  rfl

@[simp] lemma literal?_uiNode : node.uiNode.literal? name = none := by
  rw [Node.literal?, input?_uiNode]
  cases node.link? name <;> rfl

lemma links_uiNode :
    node.uiNode.links = node.links.map fun link => ⟨link.name, link.target⟩ := by
  simp only [Node.links, uiNode, List.filterMap_map]
  rw [← List.filterMap_eq_map]
  rfl

/-- The linked inputs are the same. -/
lemma links_apiNode :
    node.apiNode.links = node.links.map fun link => ⟨link.name, link.target⟩ := by
  simp only [Node.links, apiNode, links, List.filterMap_map, List.map_filterMap]
  refine List.filterMap_congr fun input _ => ?_
  obtain ⟨name, input⟩ := input
  cases input <;> rfl

lemma firstLink?_apiNode : node.apiNode.firstLink? = node.uiNode.firstLink? := by
  rw [Node.firstLink?, Node.firstLink?, links_apiNode, links_uiNode]

/-- A widget's own value is the literal of its name, whichever form the node comes from. -/
lemma ownValue?_apiNode : Tracing.ownValue? .builtin node.apiNode name = node.literal? name := by
  have hnone : Tracing.positional? .builtin node.apiNode name = none := by
    simp [Tracing.positional?, apiNode]
  rw [Tracing.ownValue?, literal?_apiNode, hnone]
  cases node.literal? name <;> rfl

lemma filter_widgetValue :
    (some (node.widgetValue name)).filter (fun value => !value.isNull) = node.literal? name := by
  unfold widgetValue literal?
  cases node.input? name with
  | none => rfl
  | some input =>
    cases input with
    | literal value => cases value <;> rfl
    | link number target => rfl

lemma literal?_eq_none_of_notMem (h : name ∉ node.definition.widgets) :
    node.literal? name = none := by
  cases hi : node.input? name with
  | none => rw [literal?, hi]; rfl
  | some input =>
    cases input with
    | literal value => exact absurd (node.literals_named name value (node.mem_of_input? name hi)) h
    | link number target => rw [literal?, hi]; rfl

lemma ownValue?_uiNode : Tracing.ownValue? .builtin node.uiNode name = node.literal? name := by
  have hget : NodeLibrary.builtin.get? node.uiNode.classType = some node.definition :=
    node.registered
  have hpos : Tracing.positional? .builtin node.uiNode name = node.literal? name := by
    unfold Tracing.positional?
    simp only [hget, Option.bind_eq_bind, Option.bind_some]
    cases hi : node.definition.widgetIndex? name with
    | none =>
      have hout : name ∉ node.definition.widgets := by
        intro hmem
        simpa using List.findIdx?_eq_none_iff.mp hi name hmem
      rw [node.literal?_eq_none_of_notMem name hout]
      rfl
    | some index =>
      obtain ⟨hlt, hname, -⟩ := List.findIdx?_eq_some_iff_getElem.mp hi
      have hat : node.uiNode.widgets[index]? = some (node.widgetValue name) := by
        have hw : node.definition.widgets[index] = name := by simpa using hname
        simp only [uiNode, List.getElem?_map, List.getElem?_eq_getElem hlt, hw, Option.map_some]
      rw [Option.bind_some, hat]
      exact node.filter_widgetValue name
  rw [Tracing.ownValue?, literal?_uiNode, hpos]

lemma ownValue?_forms :
    Tracing.ownValue? .builtin node.apiNode = Tracing.ownValue? .builtin node.uiNode :=
  funext fun name => (node.ownValue?_apiNode name).trans (node.ownValue?_uiNode name).symm

end Workflow.AuthoredNode

namespace Tracing

open Workflow

variable (node : AuthoredNode) (slot : Option UInt32) (depth : Nat)

/-- A step to an input is the same unless the input is a literal. -/
lemma toInput_apiNode {name : String} (h : node.literal? name = none) :
    Step.toInput node.apiNode name depth = Step.toInput node.uiNode name depth := by
  unfold Step.toInput
  rw [node.literal?_apiNode, node.literal?_uiNode, h, node.input?_apiNode, node.input?_uiNode]
  unfold AuthoredNode.link?
  cases node.input? name with
  | none => rfl
  | some input => cases input <;> rfl

lemma toInput_apiNode_of_notMem {name : String} (h : name ∉ node.definition.widgets) :
    Step.toInput node.apiNode name depth = Step.toInput node.uiNode name depth :=
  toInput_apiNode node depth (node.literal?_eq_none_of_notMem name h)

lemma toInput_apiNode_of_link {name : String} {target : Link}
    (h : node.link? name = some target) :
    Step.toInput node.apiNode name depth = Step.toInput node.uiNode name depth := by
  refine toInput_apiNode node depth ?_
  obtain ⟨input, hi, ht⟩ := Option.bind_eq_some_iff.mp h
  cases input with
  | literal value => cases ht
  | link number other => rw [AuthoredNode.literal?, hi]; rfl

lemma toWidget_apiNode (name : String) :
    Step.toWidget .builtin node.apiNode name depth =
      Step.toWidget .builtin node.uiNode name depth := by
  rw [Step.toWidget, Step.toWidget, node.link?_apiNode, node.link?_uiNode, node.ownValue?_forms]

/-- What stands in for an output is a linked input. -/
lemma exists_link_of_bypassInput? {d : Definition} {input : String}
    (h : d.bypassInput? node.uiNode slot = some input) :
    ∃ target, node.link? input = some target := by
  have hmem : ∀ link ∈ node.uiNode.links, ∃ target, node.link? link.input = some target := by
    intro link hl
    rw [node.links_uiNode] at hl
    obtain ⟨authored, ha, rfl⟩ := List.mem_map.mp hl
    exact ⟨_, node.link?_of_mem_links ha⟩
  have hfirst : ∀ input, node.uiNode.firstLink?.map (·.input) = some input →
      ∃ target, node.link? input = some target := by
    intro input hf
    obtain ⟨link, hl, rfl⟩ := Option.map_eq_some_iff.mp hf
    exact hmem link (List.mem_of_head? hl)
  have hundeclared : ∀ input, d.undeclaredInput? node.uiNode slot = some input →
      ∃ target, node.link? input = some target := by
    intro input hu
    unfold Definition.undeclaredInput? at hu
    split at hu
    · rename_i found ht
      cases hu
      unfold Definition.typedInput? at ht
      simp only [Option.bind_eq_bind, Option.bind_eq_some_iff] at ht
      obtain ⟨_, _, _, _, hsome⟩ := ht
      obtain ⟨_, _, hin⟩ := List.exists_of_findSome?_eq_some hsome
      obtain ⟨link, hl, rfl⟩ := Option.map_eq_some_iff.mp hin
      exact hmem link (List.mem_of_find?_eq_some hl)
    · exact hfirst input hu
  unfold Definition.bypassInput? at h
  split at h
  · split at h
    · rename_i hl
      cases h
      rw [node.link?_uiNode] at hl
      exact Option.isSome_iff_exists.mp hl
    · exact hundeclared input h
  · exact hfirst input h
  · exact hundeclared input h

lemma bypassInput?_apiNode (d : Definition) :
    d.bypassInput? node.apiNode slot = d.bypassInput? node.uiNode slot := by
  simp only [Definition.bypassInput?, Definition.undeclaredInput?, Definition.typedInput?,
    node.links_apiNode, node.links_uiNode, node.firstLink?_apiNode, node.link?_apiNode,
    node.link?_uiNode]

lemma through_apiNode (d : Definition) :
    Step.through (some d) node.apiNode slot depth =
      Step.through (some d) node.uiNode slot depth := by
  simp only [Step.through, bypassInput?_apiNode]
  cases hb : d.bypassInput? node.uiNode slot with
  | none => rfl
  | some input =>
    obtain ⟨target, ht⟩ := exists_link_of_bypassInput? node slot hb
    exact toInput_apiNode_of_link node depth ht

-- Two searches under the same settings, one in a graph of each form.
variable (api ui : Graph) (settings : Settings)

lemma control?_apiNode {switch : Switch} (h : node.definition.switch = some switch) :
    control? (.ofSettings api .builtin settings) node.apiNode switch.control depth =
      control? (.ofSettings ui .builtin settings) node.uiNode switch.control depth := by
  have hfree : node.link? switch.control = none := by
    cases hl : node.link? switch.control with
    | none => rfl
    | some target =>
      obtain ⟨link, hmem, hname, -⟩ := node.exists_mem_links _ hl
      exact absurd (hname ▸ AuthoredNode.mem_links.mp hmem)
        (node.control_unlinked switch h link.number link.target)
  rw [control?, control?, node.link?_apiNode, node.link?_uiNode, hfree]
  exact congrFun node.ownValue?_forms switch.control

/-- A literal is no branch, as it is that of a widget. -/
lemma branches_apiNode {switch : Switch} (h : node.definition.switch = some switch) :
    branches switch.stem node.apiNode = branches switch.stem node.uiNode := by
  have hapart : node.definition.keepsWidgetsApart = true :=
    NodeLibrary.keepsWidgetsApart_of_builtin node.registered
  unfold branches
  simp only [AuthoredNode.apiNode, AuthoredNode.uiNode, AuthoredNode.links, List.filterMap_map,
    List.map_filterMap, List.filterMap_filterMap]
  congr 1
  refine List.filterMap_congr fun input hi => ?_
  obtain ⟨name, input⟩ := input
  cases input with
  | link number target => rfl
  | literal value =>
    have hw := node.literals_named name value hi
    have hb := Definition.branchNumber?_of_mem_widgets hapart h hw
    cases value <;> simp [AuthoredInput.plain, AuthoredLink.ofInput?, hb]

/-- The branches of the UI form are linked inputs. -/
lemma exists_link_of_mem_branches {switch : Switch} {number : Int} {input : String}
    (hb : (number, input) ∈ branches switch.stem node.uiNode) :
    ∃ target, node.link? input = some target := by
  unfold branches at hb
  rw [List.mem_mergeSort] at hb
  obtain ⟨⟨name, held⟩, hmem, hnumber⟩ := List.mem_filterMap.mp hb
  obtain ⟨link, hl, heq⟩ := List.mem_map.mp hmem
  cases heq
  obtain ⟨i, -, hi⟩ := Option.map_eq_some_iff.mp hnumber
  cases hi
  exact ⟨link.target, node.link?_of_mem_links hl⟩

lemma exists_link_of_branch? {switch : Switch} {control : Option Json} {input : String}
    (h : branch? switch node.uiNode control = some input) :
    ∃ target, node.link? input = some target := by
  obtain ⟨⟨number, name⟩, hb, rfl⟩ := Option.map_eq_some_iff.mp h
  rcases Option.or_eq_some_iff.mp (Option.orElse_eq_or.symm.trans hb) with hs | ⟨-, hf⟩
  · obtain ⟨i, -, hi⟩ := Option.bind_eq_some_iff.mp hs
    exact exists_link_of_mem_branches node (List.mem_of_find?_eq_some hi)
  · exact exists_link_of_mem_branches node (List.mem_of_head? hf)

lemma throughSwitch_apiNode {switch : Switch} (h : node.definition.switch = some switch) :
    Step.throughSwitch (.ofSettings api .builtin settings) switch node.apiNode depth =
      Step.throughSwitch (.ofSettings ui .builtin settings) switch node.uiNode depth := by
  have hbranch : ∀ control, branch? switch node.apiNode control =
      branch? switch node.uiNode control := by
    intro control
    rw [branch?, branch?, branches_apiNode node h]
  simp only [Step.throughSwitch, hbranch, control?_apiNode node depth api ui settings h]
  cases hb : branch? switch node.uiNode
      (control? (.ofSettings ui .builtin settings) node.uiNode switch.control depth) with
  | none => rfl
  | some input =>
    obtain ⟨target, ht⟩ := exists_link_of_branch? node hb
    exact toInput_apiNode_of_link node depth ht

lemma separator_apiNode : separator .builtin node.apiNode = separator .builtin node.uiNode := by
  rw [separator, separator, node.ownValue?_forms]

lemma scaleFactor_apiNode :
    scaleFactor .builtin node.apiNode = scaleFactor .builtin node.uiNode := by
  rw [scaleFactor, scaleFactor, node.ownValue?_forms]

/-- Where every input is linked, LoRAs are listed in widgets only. -/
lemma enabledLoras_of_linked {node : Node}
    (h : ∀ input ∈ node.inputs, ∃ target, input.2 = .link target) :
    enabledLoras node = node.widgets.filter isEnabledLora := by
  unfold enabledLoras
  rw [List.filterMap_eq_nil_iff.mpr]
  · rfl
  intro input hi
  obtain ⟨target, ht⟩ := h input hi
  simp only [ht]

/-- A node without widgets has no literals either, so it lists no LoRAs. -/
lemma enabledLoras_apiNode (h : node.definition.widgets = []) :
    enabledLoras node.apiNode = enabledLoras node.uiNode := by
  have hapi : ∀ input ∈ node.apiNode.inputs, ∃ target, input.2 = .link target := by
    intro input hi
    obtain ⟨⟨name, authored⟩, ha, rfl⟩ := List.mem_map.mp hi
    cases authored with
    | literal value => simpa [h] using node.literals_named name value ha
    | link number target => exact ⟨target, rfl⟩
  have hui : ∀ input ∈ node.uiNode.inputs, ∃ target, input.2 = .link target := by
    intro input hi
    obtain ⟨link, -, rfl⟩ := List.mem_map.mp hi
    exact ⟨link.target, rfl⟩
  have hwidgets : node.apiNode.widgets = node.uiNode.widgets := by
    simp only [AuthoredNode.apiNode, AuthoredNode.uiNode, h, List.map_nil]
  rw [enabledLoras_of_linked hapi, enabledLoras_of_linked hui, hwidgets]

lemma rulePlan_apiNode {param : Param} {rule : Rule} (h : node.definition.rule? param = some rule) :
    rulePlan .builtin node.definition node.apiNode slot depth rule =
      rulePlan .builtin node.definition node.uiNode slot depth rule := by
  have hapart : node.definition.keepsWidgetsApart = true :=
    NodeLibrary.keepsWidgetsApart_of_builtin node.registered
  have htraced : ∀ input ∈ rule.traced, Step.toInput node.apiNode input depth =
      Step.toInput node.uiNode input depth := fun input hi =>
    toInput_apiNode_of_notMem node depth (Definition.notMem_widgets_of_traced hapart h hi)
  cases rule with
  | widget name gathers =>
    cases gathers with
    | false => simp only [rulePlan, toWidget_apiNode]
    | true => simp only [rulePlan, toWidget_apiNode, through_apiNode]
  | trace input => simp only [rulePlan, htraced input (List.mem_singleton.mpr rfl)]
  | literal name => simp only [rulePlan, node.ownValue?_forms]
  | extract extractor =>
    cases extractor with
    | joinWidgets names => simp only [rulePlan, extractorPlan, toWidget_apiNode]
    | joinInputs names =>
      simp only [rulePlan, extractorPlan]
      exact congrArg _ (List.map_congr_left htraced)
    | concatenate => simp only [rulePlan, extractorPlan, toWidget_apiNode, separator_apiNode]
    | loraList =>
      have hnone := Definition.widgets_eq_nil_of_loraList hapart h
      simp only [rulePlan, extractorPlan, enabledLoras_apiNode node hnone,
        htraced "model" (List.mem_singleton.mpr rfl)]
    | scaledSize =>
      simp only [rulePlan, extractorPlan, scaleFactor_apiNode,
        htraced "samples" (List.mem_singleton.mpr rfl)]

lemma unruledPlan_apiNode :
    unruledPlan (.ofSettings api .builtin settings) node.definition node.apiNode slot depth =
      unruledPlan (.ofSettings ui .builtin settings) node.definition node.uiNode slot depth := by
  unfold unruledPlan
  cases hs : node.definition.switch with
  | some switch => exact congrArg _ (throughSwitch_apiNode node depth api ui settings hs)
  | none => simp only [through_apiNode]

/-- At the two forms of a node a search makes the same plan. -/
theorem planFor_apiNode (param : Param) :
    planFor (.ofSettings api .builtin settings) param node.apiNode slot depth =
      planFor (.ofSettings ui .builtin settings) param node.uiNode slot depth := by
  have hapi : (Search.ofSettings api .builtin settings).library.get? node.apiNode.classType =
      some node.definition := node.registered
  have hui : (Search.ofSettings ui .builtin settings).library.get? node.uiNode.classType =
      some node.definition := node.registered
  have hmode : node.apiNode.mode = node.uiNode.mode := rfl
  cases hs : node.uiNode.mode.isSkipped with
  | true =>
    rw [planFor_skipped (hmode ▸ hs), planFor_skipped hs, hapi, hui, through_apiNode]
  | false =>
    cases hr : node.definition.rule? param with
    | some rule =>
      rw [planFor_ruled (hmode ▸ hs) hapi hr, planFor_ruled hs hui hr]
      exact rulePlan_apiNode node slot depth hr
    | none =>
      rw [planFor_unruled (hmode ▸ hs) hapi hr, planFor_unruled hs hui hr]
      exact unruledPlan_apiNode node slot depth api ui settings

end Tracing

end ImageRecipe
