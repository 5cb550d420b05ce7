import ImageRecipe.Proofs.VisitEquations
import ImageRecipe.Tracing.Interpretation
import Mathlib.Data.List.Basic

/-!
# Searches that agree

A plan leads only along links of the node that it is for. So two searches that
make the same plans at every node that links lead to are one walk: they visit
the same nodes in the same order, find the same value and gather the same
values on the way. If they do so from every sink, they find the same facts.
-/
namespace ImageRecipe.Workflow.Node

/-- Where the linked inputs of a node lead. -/
def targets (node : Node) : List Link := node.links.map (·.target)

variable {node : Node} {name : String} {target : Link}

lemma mem_links_of_link? (h : node.link? name = some target) : ⟨name, target⟩ ∈ node.links := by
  obtain ⟨input, hi, ht⟩ := Option.bind_eq_some_iff.mp h
  obtain ⟨entry, he, rfl⟩ := Option.map_eq_some_iff.mp hi
  have hname : entry.1 = name := by simpa using List.find?_some he
  refine List.mem_filterMap.mpr ⟨entry, List.mem_of_find?_eq_some he, ?_⟩
  rw [ht, Option.map_some, hname]

lemma mem_targets_of_link? (h : node.link? name = some target) : target ∈ node.targets :=
  List.mem_map.mpr ⟨_, mem_links_of_link? h, rfl⟩

lemma mem_targets_of_firstLink? {link : NamedLink} (h : node.firstLink? = some link) :
    link.target ∈ node.targets := List.mem_map_of_mem (List.mem_of_head? h)

end ImageRecipe.Workflow.Node

namespace ImageRecipe.Tracing

open Workflow

/-- The link that a step follows. -/
def Step.target? : Step → Option Link
  | .answer _ => none
  | .follow target _ => some target

/-- The steps of a plan in the order in which they are taken. -/
def Plan.steps : Plan → List Step
  | .single s => [s]
  | .gather entries onward => entries ++ [onward]
  | .join _ parts => parts
  | .scale _ base => [base]

/-- The link behind the input that stands in for an output slot of a node. -/
def standIn? (definition : Option Definition) (node : Node) (slot : Option UInt32) :
    Option Link :=
  let input : Option String := match definition with
    | some d => d.bypassInput? node slot
    | none => node.firstLink?.map (·.input)
  input.bind node.link?

section Targets

variable (search : Search) (param : Param) (node : Node) (slot : Option UInt32) (depth : Nat)

@[simp] lemma target?_toInput (name : String) :
    (Step.toInput node name depth).target? = node.link? name := by
  unfold Step.toInput Node.link?
  cases node.input? name with
  | none => rfl
  | some input => cases input <;> rfl

@[simp] lemma target?_toWidget (library : NodeLibrary) (name : String) :
    (Step.toWidget library node name depth).target? = node.link? name := by
  unfold Step.toWidget
  cases node.link? name <;> rfl

@[simp] lemma target?_through (definition : Option Definition) :
    (Step.through definition node slot depth).target? = standIn? definition node slot := by
  unfold Step.through standIn?
  cases definition with
  | none =>
    cases node.firstLink? with
    | none => rfl
    | some link => exact target?_toInput node depth link.input
  | some d =>
    cases h : d.bypassInput? node slot with
    | none => simp only [h]; rfl
    | some input => simp only [h, target?_toInput, Option.bind_some]

/-- A step that stays on the links of a node. -/
def Step.StaysOn (node : Node) (s : Step) : Prop :=
  ∀ target, s.target? = some target → target ∈ node.targets

lemma staysOn_answer (value : Option Json) : (Step.answer value).StaysOn node := by
  intro target h
  cases h

lemma staysOn_toInput (name : String) : (Step.toInput node name depth).StaysOn node := by
  intro target h
  rw [target?_toInput] at h
  exact Node.mem_targets_of_link? h

lemma staysOn_toWidget (library : NodeLibrary) (name : String) :
    (Step.toWidget library node name depth).StaysOn node := by
  intro target h
  rw [target?_toWidget] at h
  exact Node.mem_targets_of_link? h

lemma staysOn_through (definition : Option Definition) :
    (Step.through definition node slot depth).StaysOn node := by
  intro target h
  rw [target?_through] at h
  obtain ⟨input, -, hl⟩ := Option.bind_eq_some_iff.mp h
  exact Node.mem_targets_of_link? hl

lemma staysOn_throughSwitch (switch : Switch) :
    (Step.throughSwitch search switch node depth).StaysOn node := by
  unfold Step.throughSwitch
  split
  · exact staysOn_toInput node depth _
  · exact staysOn_answer node none

lemma staysOn_guess : (Step.guess param node depth).StaysOn node := by
  unfold Step.guess
  split
  · exact staysOn_answer node _
  split
  · rename_i target h
    intro other ho
    cases ho
    obtain ⟨hint, -, hl⟩ := List.exists_of_findSome?_eq_some h
    exact Node.mem_targets_of_link? hl
  split
  · exact staysOn_toInput node depth _
  · exact staysOn_answer node _

lemma staysOn_of_mem_extractorPlan {library : NodeLibrary} {extractor : Extractor} {s : Step}
    (h : s ∈ (extractorPlan library node depth extractor).steps) : s.StaysOn node := by
  cases extractor with
  | joinWidgets names =>
    obtain ⟨name, -, rfl⟩ := List.mem_map.mp h
    exact staysOn_toWidget node depth library name
  | joinInputs names =>
    obtain ⟨name, -, rfl⟩ := List.mem_map.mp h
    exact staysOn_toInput node depth name
  | concatenate =>
    obtain ⟨name, -, rfl⟩ := List.mem_map.mp h
    exact staysOn_toWidget node depth library name
  | loraList =>
    rcases List.mem_append.mp h with he | ho
    · obtain ⟨entry, -, rfl⟩ := List.mem_map.mp he
      exact staysOn_answer node _
    · rw [List.mem_singleton.mp ho]
      exact staysOn_toInput node depth "model"
  | scaledSize =>
    rw [List.mem_singleton.mp h]
    exact staysOn_toInput node depth "samples"

lemma staysOn_of_mem_rulePlan {library : NodeLibrary} {d : Definition} {rule : Rule} {s : Step}
    (h : s ∈ (rulePlan library d node slot depth rule).steps) : s.StaysOn node := by
  cases rule with
  | widget name gathers =>
    cases gathers with
    | false =>
      rw [List.mem_singleton.mp h]
      exact staysOn_toWidget node depth library name
    | true =>
      rcases List.mem_append.mp h with he | ho
      · rw [List.mem_singleton.mp he]
        exact staysOn_toWidget node depth library name
      · rw [List.mem_singleton.mp ho]
        exact staysOn_through node slot depth (some d)
  | trace input =>
    rw [List.mem_singleton.mp h]
    exact staysOn_toInput node depth input
  | literal name =>
    rw [List.mem_singleton.mp h]
    exact staysOn_answer node _
  | extract extractor => exact staysOn_of_mem_extractorPlan node depth h

lemma staysOn_of_mem_unruledPlan {d : Definition} {s : Step}
    (h : s ∈ (unruledPlan search d node slot depth).steps) : s.StaysOn node := by
  unfold unruledPlan at h
  split at h
  · rw [List.mem_singleton.mp h]
    exact staysOn_throughSwitch search node depth _
  split at h
  · rw [List.mem_singleton.mp h]
    exact staysOn_answer node none
  · rw [List.mem_singleton.mp h]
    exact staysOn_through node slot _ (some d)

lemma staysOn_of_mem_unknownPlan {s : Step}
    (h : s ∈ (unknownPlan search param node depth).steps) : s.StaysOn node := by
  unfold unknownPlan at h
  split at h
  · split at h
    · rw [List.mem_singleton.mp h]
      exact staysOn_answer node _
    · rw [List.mem_singleton.mp h]
      exact staysOn_guess param node depth
  · rw [List.mem_singleton.mp h]
    exact staysOn_answer node none

/-- A plan leads only along links of its node. -/
theorem staysOn_of_mem_planFor {s : Step}
    (h : s ∈ (planFor search param node slot depth).steps) : s.StaysOn node := by
  cases hs : node.mode.isSkipped with
  | true =>
    rw [planFor_skipped hs] at h
    rw [List.mem_singleton.mp h]
    exact staysOn_through node slot depth _
  | false =>
    cases hd : search.library.get? node.classType with
    | none =>
      rw [planFor_unknown hs hd] at h
      exact staysOn_of_mem_unknownPlan search param node depth h
    | some d =>
      cases hr : d.rule? param with
      | some rule =>
        rw [planFor_ruled hs hd hr] at h
        exact staysOn_of_mem_rulePlan node slot depth h
      | none =>
        rw [planFor_unruled hs hd hr] at h
        exact staysOn_of_mem_unruledPlan search node slot depth h

end Targets

namespace Walk

variable {visit visit' : Link → Nat → Walk (Option Json)}

lemma step_congr {s : Step} (h : ∀ target, s.target? = some target → visit target = visit' target) :
    step visit s = step visit' s := by
  cases s with
  | answer value => rfl
  | follow target depth => exact congrFun (h target rfl) depth

lemma note_congr {s : Step} (h : ∀ target, s.target? = some target → visit target = visit' target)
    (id : String) : note visit id s = note visit' id s := by
  rw [note, note, step_congr h]

lemma forM_note_congr {entries : List Step} (h : ∀ s ∈ entries, ∀ target,
    s.target? = some target → visit target = visit' target) (id : String) :
    entries.forM (note visit id) = entries.forM (note visit' id) := by
  induction entries with
  | nil => rfl
  | cons entry entries ih =>
    have hrest := ih fun s hs => h s (List.mem_cons_of_mem _ hs)
    simp only [List.forM_eq_forM, List.forM_cons] at hrest ⊢
    rw [note_congr (h entry List.mem_cons_self), hrest]

lemma mapM_step_congr {parts : List Step} (h : ∀ s ∈ parts, ∀ target,
    s.target? = some target → visit target = visit' target) :
    parts.mapM (step visit) = parts.mapM (step visit') := by
  induction parts with
  | nil => rfl
  | cons part parts ih =>
    rw [List.mapM_cons, List.mapM_cons, step_congr (h part List.mem_cons_self),
      ih fun s hs => h s (List.mem_cons_of_mem _ hs)]

/-- What carrying out a plan does hangs only on the visits along the links that the plan
follows. -/
theorem carryOut_congr {plan : Plan} (h : ∀ s ∈ plan.steps, ∀ target,
    s.target? = some target → visit target = visit' target) (id : String) :
    carryOut visit id plan = carryOut visit' id plan := by
  cases plan with
  | single s => exact step_congr (h s (List.mem_singleton.mpr rfl))
  | gather entries onward =>
    have hentries : entries.forM (note visit id) = entries.forM (note visit' id) :=
      forM_note_congr (fun s hs => h s (List.mem_append_left _ hs)) id
    have honward : step visit onward = step visit' onward :=
      step_congr (h onward (List.mem_append_right _ (List.mem_singleton.mpr rfl)))
    rw [carryOut, carryOut, hentries, honward]
  | join separator parts =>
    have hparts : parts.mapM (step visit) = parts.mapM (step visit') := mapM_step_congr h
    rw [carryOut, carryOut, hparts]
  | scale factor base =>
    rw [carryOut, carryOut, step_congr (h base (List.mem_singleton.mpr rfl))]

end Walk

/-- The plan at an id, if there is a node. -/
def Search.plan? (search : Search) (param : Param) (id : String) (slot : Option UInt32)
    (depth : Nat) : Option Plan :=
  (search.graph.node? id).map fun node => planFor search param node slot depth

/-- Of a search a plan takes only its library and its heuristics, and at a switch that runs and has
no rule for the parameter the value of the control. -/
lemma planFor_congr {s t : Search} {param : Param} {node : Node} {slot : Option UInt32}
    {depth : Nat}
    (hlibrary : s.library = t.library) (hheuristics : s.heuristics = t.heuristics)
    (hcontrol : node.mode.isSkipped = false → ∀ d, s.library.get? node.classType = some d →
      d.rule? param = none → ∀ switch, d.switch = some switch →
        control? s node switch.control depth = control? t node switch.control depth) :
    planFor s param node slot depth = planFor t param node slot depth := by
  cases hs : node.mode.isSkipped with
  | true => rw [planFor_skipped hs, planFor_skipped hs, hlibrary]
  | false =>
    cases hd : s.library.get? node.classType with
    | none =>
      rw [planFor_unknown hs hd, planFor_unknown hs (hlibrary ▸ hd)]
      simp only [unknownPlan, hheuristics]
    | some d =>
      cases hr : d.rule? param with
      | some rule =>
        rw [planFor_ruled hs hd hr, planFor_ruled hs (hlibrary ▸ hd) hr, hlibrary]
      | none =>
        rw [planFor_unruled hs hd hr, planFor_unruled hs (hlibrary ▸ hd) hr]
        unfold unruledPlan
        cases hswitch : d.switch with
        | none => rfl
        | some switch => simp only [Step.throughSwitch, hcontrol hs d hd hr switch hswitch]

/-- Two searches have the same limits and make the same plans at the ids `within`, and links do
not lead out of these. -/
structure Search.AgreesOn (s t : Search) (param : Param) (within : String → Prop) : Prop where
  maxDepth_eq : s.maxDepth = t.maxDepth
  plan?_eq : ∀ id, within id → ∀ slot depth,
    s.plan? param id slot depth = t.plan? param id slot depth
  closed : ∀ id, within id → ∀ node, s.graph.node? id = some node →
    ∀ target ∈ node.targets, within target.source

namespace Search

variable {s t : Search} {param : Param} {within : String → Prop}

lemma run_visit_entered_plan? (search : Search) {room : Nat} {id : String}
    {slot : Option UInt32} {depth : Nat} {trail : Trail} (h : ¬ search.Refuses id depth trail) :
    (search.visit param (room + 1) id slot depth).run trail =
      match search.plan? param id slot depth with
      | none => (none, trail.enter id)
      | some plan =>
        (Walk.carryOut (search.visitBehind param room) id plan).run (trail.enter id) := by
  rw [run_visit_entered search param h, plan?]
  cases search.graph.node? id <;> rfl

/-- Induction on the room that is left: one step of a visit carries out the same plan, and the
visits behind it are the same. -/
theorem AgreesOn.visit_eq (h : s.AgreesOn t param within) {room : Nat} {id : String}
    (hid : within id) (slot : Option UInt32) (depth : Nat) :
    s.visit param room id slot depth = t.visit param room id slot depth := by
  induction room generalizing id slot depth with
  | zero => rfl
  | succ room ih =>
    refine StateT.ext fun trail => ?_
    have hrefuse : s.Refuses id depth trail ↔ t.Refuses id depth trail := by
      rw [Refuses, Refuses, h.maxDepth_eq]
    by_cases hr : s.Refuses id depth trail
    · rw [run_visit_refused s param hr, run_visit_refused t param (hrefuse.mp hr)]
    rw [run_visit_entered_plan? s hr, run_visit_entered_plan? t (hrefuse.not.mp hr),
      ← h.plan?_eq id hid slot depth]
    cases hn : s.graph.node? id with
    | none => simp only [plan?, hn, Option.map_none]
    | some node =>
      simp only [plan?, hn, Option.map_some]
      have hbehind : ∀ step ∈ (planFor s param node slot depth).steps, ∀ target,
          step.target? = some target →
            s.visitBehind param room target = t.visitBehind param room target := by
        intro step hstep target htarget
        have hmem := staysOn_of_mem_planFor s param node slot depth hstep target htarget
        exact funext fun depth => ih (h.closed id hid node hn target hmem) target.slot depth
      rw [Walk.carryOut_congr hbehind]

theorem AgreesOn.resolve_eq (h : s.AgreesOn t param within) {start : String}
    (hstart : within start) : s.resolve start param = t.resolve start param := by
  have hpath : s.maxPath = t.maxPath := congrArg (2 * ·) h.maxDepth_eq
  rw [resolve, resolve, hpath, h.visit_eq hstart]

/-- With the same limits and the same plans at every id searches are the same from everywhere. -/
theorem resolve_congr (hdepth : s.maxDepth = t.maxDepth)
    (hplan : ∀ id slot depth, s.plan? param id slot depth = t.plan? param id slot depth)
    (start : String) : s.resolve start param = t.resolve start param := by
  have hagrees : s.AgreesOn t param fun _ => True :=
    ⟨hdepth, fun id _ => hplan id, fun _ _ _ _ _ _ => trivial⟩
  exact hagrees.resolve_eq trivial

end Search

/-- Nodes with the ranks of their counterparts are in the order of these. -/
lemma byRank_map {α : Type} (form : α → Node) (ranked : List (Nat × α)) :
    byRank (ranked.map fun entry => (entry.1, form entry.2)) =
      ((ranked.mergeSort fun a b => a.1 ≤ b.1).map (·.2)).map form := by
  have hsort : (ranked.mergeSort fun a b => a.1 ≤ b.1).map (fun entry => (entry.1, form entry.2)) =
      (ranked.map fun entry => (entry.1, form entry.2)).mergeSort fun a b => a.1 ≤ b.1 :=
    List.map_mergeSort fun _ _ _ _ => rfl
  rw [byRank, ← hsort, List.map_map, List.map_map]
  rfl

/-- What is made of the value of a walk needs to be the same for the values that it has. -/
lemma Walk.bind_pure_congr {α β : Type} {walk : Walk α} {f g : α → β}
    (h : ∀ trail, f (walk.run trail).1 = g (walk.run trail).1) :
    (walk >>= fun a => pure (f a)) = walk >>= fun a => pure (g a) :=
  StateT.ext fun trail => congrArg (·, (walk.run trail).2) (h trail)

namespace Search

variable {s t : Search} {nodes nodes' : List Node}

/-- Of a sink a search takes only its id. -/
lemma first_congr {α : Type} {param : Param} (read : Json → Option α)
    (h : ∀ start, s.resolve start param = t.resolve start param)
    (hids : nodes.map Node.id = nodes'.map Node.id) :
    s.first param read nodes = t.first param read nodes' := by
  induction nodes generalizing nodes' with
  | nil =>
    cases List.map_eq_nil_iff.mp hids.symm
    rfl
  | cons node nodes ih =>
    obtain ⟨node', rest, rfl, hid, hrest⟩ := List.map_eq_cons_iff.mp hids.symm
    rw [first, first, h, ← hid, ih hrest.symm]

lemma collect_congr {param : Param} (h : ∀ start, s.resolve start param = t.resolve start param)
    (hids : nodes.map Node.id = nodes'.map Node.id) :
    s.collect param nodes = t.collect param nodes' := by
  induction nodes generalizing nodes' with
  | nil =>
    cases List.map_eq_nil_iff.mp hids.symm
    rfl
  | cons node nodes ih =>
    obtain ⟨node', rest, rfl, hid, hrest⟩ := List.map_eq_cons_iff.mp hids.symm
    rw [collect, collect, h, ← hid, ih hrest.symm]

/-- Of a search a gathered LoRA takes what it takes of its loader. -/
lemma lora?_congr {entry : String × Json}
    (h : ∀ value, loraOfLoader? s entry.1 value = loraOfLoader? t entry.1 value) :
    lora? s entry = lora? t entry := by
  unfold lora?
  cases entry.2 <;> simp only [h]

/-- Searches that agree from everywhere find the same facts, if they read the same LoRAs from what
they gather. -/
theorem facts_congr (h : ∀ start param, s.resolve start param = t.resolve start param)
    (hids : nodes.map Node.id = nodes'.map Node.id)
    (hloras : ∀ trail, ∀ entry ∈ ((s.collect .lora nodes).run trail).1,
      lora? s entry = lora? t entry) : s.facts nodes = t.facts nodes' := by
  have hcollect : s.collect .lora nodes = t.collect .lora nodes' :=
    collect_congr (fun start => h start .lora) hids
  simp only [facts, ← hcollect, first_congr _ (fun start => h start _) hids]
  iterate 12 refine bind_congr fun _ => ?_
  refine Walk.bind_pure_congr fun trail => ?_
  rw [List.filterMap_congr (hloras trail)]

end Search

end ImageRecipe.Tracing
