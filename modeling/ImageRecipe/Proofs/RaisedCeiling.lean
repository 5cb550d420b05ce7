import ImageRecipe.Proofs.SkippedValues
import ImageRecipe.Proofs.WiringPast

/-!
# Higher ceilings

A search under a higher ceiling goes the same way and may go on where it was
stopped before, so what was found under a ceiling is found under every higher
one. The exception is a switch whose control lies behind a link. The control is
looked for only as far as the ceiling allows, and as long as it is out of reach
the switch takes its first branch. So a higher ceiling that brings the control
within reach may send the search into another branch.
-/
namespace ImageRecipe.Tracing

open Workflow

/-- Within more steps the same plain value is found. Induction on the fewer steps. -/
lemma plainValueBehind?_mono {graph : Graph} {steps steps' : Nat} (h : steps ≤ steps')
    {source : String} {value : Json} (hv : plainValueBehind? graph steps source = some value) :
    plainValueBehind? graph steps' source = some value := by
  induction steps generalizing steps' source with
  | zero => cases hv
  | succ steps ih =>
    obtain ⟨more, rfl⟩ : ∃ more, steps' = more + 1 := ⟨steps' - 1, by omega⟩
    have hmore : steps ≤ more := by omega
    rw [plainValueBehind?] at hv ⊢
    cases hn : graph.node? source with
    | none => simp [hn] at hv
    | some node =>
      simp only [hn] at hv ⊢
      cases hp : plainValue? node with
      | some held => simpa only [hp] using hv
      | none =>
        simp only [hp] at hv ⊢
        cases hl : node.firstLink? with
        | none => simp [hl] at hv
        | some link =>
          simp only [hl] at hv ⊢
          exact ih hmore hv

namespace Search

/-- The same search under another ceiling. -/
def raised (search : Search) (ceiling : Nat) : Search := { search with maxDepth := ceiling }

/-- The search for the parameter from `start` comes to a node, through an output slot and at some
depth. -/
inductive ComesTo (search : Search) (param : Param) (start : String) :
    Node → Option UInt32 → Nat → Prop
  | begins {node : Node} (hn : search.graph.node? start = some node) :
      ComesTo search param start node none 0
  | goesOn {node next : Node} {slot : Option UInt32} {depth behind : Nat} {target : Link}
      (hc : ComesTo search param start node slot depth)
      (hp : planFor search param node slot depth = .single (.follow target behind))
      (hd : behind ≤ search.maxDepth) (hn : search.graph.node? target.source = some next) :
      ComesTo search param start next target.slot behind

/-- No switch that the search comes to selects another branch under the ceiling `raised`: if the
value of its linked control is out of reach, it is so under that ceiling too, or it selects the
branch that is taken without it. -/
def SelectsUnder (search : Search) (param : Param) (start : String) (raised : Nat) : Prop :=
  ∀ node slot depth, search.ComesTo param start node slot depth → node.mode.isSkipped = false →
    ∀ d, search.library.get? node.classType = some d → d.rule? param = none →
      ∀ switch, d.switch = some switch → ∀ target, node.link? switch.control = some target →
        plainValueBehind? search.graph (search.maxDepth - depth) target.source = none →
          ∀ value, plainValueBehind? search.graph (raised - depth) target.source = some value →
            branch? switch node (some value) = branch? switch node none

end Search

section Plans

variable {search : Search} {param : Param} {start : String} {ceiling : Nat} {node : Node}
  {slot : Option UInt32} {depth : Nat}

/-- A switch that the search comes to is left through the same branch. -/
lemma throughSwitch_raised (hle : search.maxDepth ≤ ceiling)
    (hs : search.SelectsUnder param start ceiling)
    (hc : search.ComesTo param start node slot depth) (hrun : node.mode.isSkipped = false)
    {d : Definition} (hd : search.library.get? node.classType = some d) (hr : d.rule? param = none)
    {switch : Switch} (hw : d.switch = some switch) :
    Step.throughSwitch (search.raised ceiling) switch node depth =
      Step.throughSwitch search switch node depth := by
  have hbranch : branch? switch node (control? (search.raised ceiling) node switch.control depth) =
      branch? switch node (control? search node switch.control depth) := by
    cases hl : node.link? switch.control with
    | none => simp only [control?, hl, Search.raised]
    | some target =>
      have hbudget : search.maxDepth - depth ≤ ceiling - depth := by omega
      simp only [control?, hl, Search.raised]
      cases hnow : plainValueBehind? search.graph (search.maxDepth - depth) target.source with
      | some value => rw [plainValueBehind?_mono hbudget hnow]
      | none =>
        cases hlate : plainValueBehind? search.graph (ceiling - depth) target.source with
        | none => rfl
        | some value =>
          exact hs node slot depth hc hrun d hd hr switch hw target hl hnow value hlate
  rw [Step.throughSwitch, Step.throughSwitch, hbranch]

/-- At a node that the search comes to, the plan is one step, and the same one. -/
lemma planFor_raised (hlib : search.library = .builtin) (hp : param ∈ Param.onOnePath)
    (hle : search.maxDepth ≤ ceiling) (hs : search.SelectsUnder param start ceiling)
    (hc : search.ComesTo param start node slot depth) :
    ∃ step, planFor search param node slot depth = .single step ∧
      planFor (search.raised ceiling) param node slot depth = .single step := by
  let raised := search.raised ceiling
  cases hrun : node.mode.isSkipped with
  | true => exact ⟨_, planFor_skipped hrun, planFor_skipped hrun⟩
  | false =>
    cases hd : search.library.get? node.classType with
    | none =>
      obtain ⟨move, hmove⟩ : ∃ move : Move, ∀ depth,
          unknownPlan search param node depth = .single (move.step (depth + 1)) :=
        unknownPlan_eq_single search
      have hplan : planFor search param node slot depth = unknownPlan search param node depth :=
        planFor_unknown hrun hd
      have hplan' : planFor raised param node slot depth = unknownPlan search param node depth :=
        planFor_unknown hrun hd
      exact ⟨_, hplan.trans (hmove depth), hplan'.trans (hmove depth)⟩
    | some d =>
      cases hr : d.rule? param with
      | some rule =>
        have hplace : rule.readsOnePlace = true :=
          NodeLibrary.readsOnePlace_of_builtin (hlib ▸ hd) hp hr
        obtain ⟨move, hmove⟩ : ∃ move : Move, ∀ depth,
            rulePlan search.library d node slot depth rule = .single (move.step (depth + 1)) :=
          rulePlan_eq_single hplace slot
        have hplan : planFor search param node slot depth =
            rulePlan search.library d node slot depth rule := planFor_ruled hrun hd hr
        have hplan' : planFor raised param node slot depth =
            rulePlan search.library d node slot depth rule := planFor_ruled hrun hd hr
        exact ⟨_, hplan.trans (hmove depth), hplan'.trans (hmove depth)⟩
      | none =>
        have hplan : planFor search param node slot depth = unruledPlan search d node slot depth :=
          planFor_unruled hrun hd hr
        have hplan' : planFor raised param node slot depth = unruledPlan raised d node slot depth :=
          planFor_unruled hrun hd hr
        rw [hplan, hplan', unruledPlan, unruledPlan]
        cases hw : d.switch with
        | some switch =>
          exact ⟨_, rfl, congrArg _ (throughSwitch_raised hle hs hc hrun hd hr hw)⟩
        | none =>
          by_cases hpass : d.passThrough.isEmpty = true
          · simp only [hpass, if_true]
            exact ⟨_, rfl, rfl⟩
          · simp only [hpass, Bool.false_eq_true, if_false]
            exact ⟨_, rfl, rfl⟩

/-- Induction on the room that is left. What the visit is not refused for now, it is not refused for
under the higher ceiling, since the same nodes were visited. -/
theorem visit_raised (hlib : search.library = .builtin) (hp : param ∈ Param.onOnePath)
    (hle : search.maxDepth ≤ ceiling) (hs : search.SelectsUnder param start ceiling)
    {room room' : Nat} (hroom : room ≤ room') {id : String} {trail : Trail} {value : Json}
    (hc : depth ≤ search.maxDepth → ∀ node, search.graph.node? id = some node →
      search.ComesTo param start node slot depth)
    (h : ((search.visit param room id slot depth).run trail).1 = some value) :
    (((search.raised ceiling).visit param room' id slot depth).run trail).1 = some value := by
  induction room generalizing room' id slot depth trail with
  | zero => simp at h
  | succ room ih =>
    obtain ⟨more, rfl⟩ : ∃ more, room' = more + 1 := ⟨room' - 1, by omega⟩
    by_cases hr : search.Refuses id depth trail
    · rw [Search.run_visit_refused search param hr] at h
      simp at h
    obtain ⟨hdepth, hfresh⟩ := not_or.mp hr
    have hr' : ¬ (search.raised ceiling).Refuses id depth trail := by
      refine not_or.mpr ⟨?_, hfresh⟩
      change ¬ ceiling < depth
      omega
    cases hn : search.graph.node? id with
    | none =>
      rw [Search.run_visit_missing search param hr hn] at h
      simp at h
    | some node =>
      have hcomes := hc (Nat.not_lt.mp hdepth) node hn
      obtain ⟨step, hplan, hplan'⟩ := planFor_raised hlib hp hle hs hcomes
      rw [Search.run_visit_single search param hr hn hplan] at h
      rw [Search.run_visit_single (search.raised ceiling) param hr' hn hplan']
      cases step with
      | answer held => exact h
      | follow target behind =>
        have hroom' : room ≤ more := by omega
        exact ih hroom' (fun hb next hnext => .goesOn hcomes hplan hb hnext) h

end Plans

/-- What is found under a ceiling is found under every higher one, unless that brings the control of
a switch on the way within reach and this selects another branch. -/
theorem foundWithin_raised (graph : Graph) (settings : Settings) (param : Param)
    (hp : param ∈ Param.onOnePath) (start : String) (d d' : Nat) (hle : d ≤ d')
    (hs : (Search.ofSettings graph .builtin { settings with maxDepth := d }).SelectsUnder param
      start (max 1 (min d' Fault.depthLimit)))
    (value : Json) (h : foundWithin graph settings param start d = some value) :
    foundWithin graph settings param start d' = some value := by
  let search := Search.ofSettings graph .builtin { settings with maxDepth := d }
  have hlib : search.library = .builtin := rfl
  have hceiling : search.maxDepth ≤ max 1 (min d' Fault.depthLimit) := by
    change max 1 (min d Fault.depthLimit) ≤ _
    omega
  have hroom : search.maxPath ≤ 2 * max 1 (min d' Fault.depthLimit) :=
    Nat.mul_le_mul_left 2 hceiling
  have hbegins : 0 ≤ search.maxDepth → ∀ node, search.graph.node? start = some node →
      search.ComesTo param start node none 0 := fun _ _ hn => .begins hn
  exact visit_raised hlib hp hceiling hs hroom hbegins h

/-- A sampler with nothing but its number of steps. -/
def samplerOf (id : String) (steps : Int) : Node :=
  ⟨id, "KSampler", none, [("steps", .literal (.num (.int steps)))], [], .active⟩

def rerouteOfControl : Node := ⟨"5", "Reroute", none, [("", .link ⟨"6", 0⟩)], [], .active⟩

def branchNumberTwo : Node :=
  ⟨"6", "PrimitiveInt", none, [("value", .literal (.num (.int 2)))], [], .active⟩

/-- A switch between two samplers, with its control behind a reroute. -/
def distantControlGraph : Graph :=
  .ofNodes [samplerOf "1" 10, samplerOf "2" 20, promptSwitch, rerouteOfControl, branchNumberTwo,
    saveOfSwitch]

def distantSearch (d : Nat) : Search := .ofSettings distantControlGraph .builtin { maxDepth := d }

section Distant

variable {d : Nat} {name id : String} {steps : Int}

lemma planFor_samplerOf {slot : Option UInt32} {depth : Nat} :
    planFor (distantSearch d) .steps (samplerOf id steps) slot depth =
      .single (.answer (some (.num (.int steps)))) := by
  have hlib : (distantSearch d).library = .builtin := rfl
  have hget : (distantSearch d).library.get? (samplerOf id steps).classType =
      some Catalogue.kSampler := hlib ▸ NodeLibrary.get?_builtin_kSampler
  have hrule : Catalogue.kSampler.rule? .steps = some (.widget "steps" false) := rfl
  rw [planFor_ruled rfl hget hrule]
  rfl

variable
  (hbranch : branch? ⟨"select", "input"⟩ promptSwitch
    (control? (distantSearch d) promptSwitch "select" 1) = some name)
  (hlink : promptSwitch.input? name = some (.link ⟨id, 0⟩))
  (hnode : distantControlGraph.node? id = some (samplerOf id steps))
include hbranch hlink hnode

/-- The search comes to the switch and to the sampler behind the branch, and to nothing else. -/
lemma comesTo_distantControlGraph {node : Node} {slot : Option UInt32} {depth : Nat}
    (h : (distantSearch d).ComesTo .steps "9" node slot depth) :
    node = saveOfSwitch ∧ depth = 0 ∨ node = promptSwitch ∧ depth = 1 ∨
      node = samplerOf id steps := by
  have hlib : (distantSearch d).library = .builtin := rfl
  induction h with
  | begins hn =>
    cases hn
    exact Or.inl ⟨rfl, rfl⟩
  | goesOn hc hp hd hn ih =>
    rcases ih with ⟨rfl, rfl⟩ | ⟨rfl, rfl⟩ | rfl
    · rw [planFor_saveOfSwitch hlib] at hp
      cases hp
      cases hn
      exact Or.inr (Or.inl ⟨rfl, rfl⟩)
    · rw [planFor_promptSwitch hlib hbranch hlink] at hp
      cases hp
      exact Or.inr (Or.inr (Option.some.inj (hn.symm.trans hnode)))
    · rw [planFor_samplerOf] at hp
      cases hp

lemma foundWithin_distantControlGraph (hid : id ≠ "3" ∧ id ≠ "9") (hd : 2 ≤ d) :
    foundWithin distantControlGraph {} .steps "9" d = some (.num (.int steps)) := by
  have hlib : (distantSearch d).library = .builtin := rfl
  have hdepth : 2 ≤ (distantSearch d).maxDepth := by
    change 2 ≤ max 1 (min d Fault.depthLimit)
    rw [Fault.depthLimit]
    omega
  exact Search.value_resolve_of_two_links (distantSearch d) _ hdepth (by decide) hid rfl
    (planFor_saveOfSwitch hlib .steps none 0) rfl
    (planFor_promptSwitch hlib hbranch hlink .steps (some 0)) hnode planFor_samplerOf

end Distant

/-- One node behind the switch its control is out of reach, so that the first branch is taken. -/
lemma branch?_distantSearch_two : branch? ⟨"select", "input"⟩ promptSwitch
    (control? (distantSearch 2) promptSwitch "select" 1) = some "input1" := by
  have hcontrol : control? (distantSearch 2) promptSwitch "select" 1 = none := rfl
  rw [hcontrol, branch?, branches_promptSwitch]
  rfl

lemma branch?_distantSearch_three : branch? ⟨"select", "input"⟩ promptSwitch
    (control? (distantSearch 3) promptSwitch "select" 1) = some "input2" := by
  have hcontrol : control? (distantSearch 3) promptSwitch "select" 1 = some (.num (.int 2)) := rfl
  rw [hcontrol]
  exact branch?_promptSwitch false

/-- Once the control is within reach, a higher ceiling changes nothing. -/
theorem foundWithin_distantControlGraph_raised :
    (Param.steps ∈ Param.onOnePath ∧ 3 ≤ 64 ∧
      (distantSearch 3).SelectsUnder .steps "9" (max 1 (min 64 Fault.depthLimit)) ∧
      foundWithin distantControlGraph {} .steps "9" 3 = some (.num (.int 20))) ∧
    foundWithin distantControlGraph {} .steps "9" 64 = some (.num (.int 20)) := by
  have hs : (distantSearch 3).SelectsUnder .steps "9" (max 1 (min 64 Fault.depthLimit)) := by
    intro node slot depth hc _ d hd _ switch hw target hl hlate
    rcases comesTo_distantControlGraph branch?_distantSearch_three rfl rfl hc with
      ⟨rfl, rfl⟩ | ⟨rfl, rfl⟩ | rfl
    · cases NodeLibrary.get?_builtin_saveImage.symm.trans hd
      cases hw
    · cases NodeLibrary.get?_builtin_impactSwitch.symm.trans hd
      cases hw
      cases hl
      cases hlate
    · cases NodeLibrary.get?_builtin_kSampler.symm.trans hd
      cases hw
  have hfound : foundWithin distantControlGraph {} .steps "9" 3 = some (.num (.int 20)) :=
    foundWithin_distantControlGraph branch?_distantSearch_three rfl rfl (by decide) (by decide)
  exact ⟨⟨by decide, by decide, hs, hfound⟩,
    foundWithin_raised distantControlGraph {} .steps (by decide) "9" 3 64 (by decide) hs _ hfound⟩

/-- A ceiling that brings the control within reach turns the answer into another one. -/
theorem foundWithin_distantControlGraph_ne :
    (Param.steps ∈ Param.onOnePath ∧ 1 ≤ 2 ∧ 2 ≤ 3 ∧ 3 ≤ 128) ∧
    foundWithin distantControlGraph {} .steps "9" 2 = some (.num (.int 10)) ∧
    foundWithin distantControlGraph {} .steps "9" 3 = some (.num (.int 20)) := by
  have htwo := foundWithin_distantControlGraph branch?_distantSearch_two rfl rfl (by decide)
    (Nat.le_refl 2)
  have hthree := foundWithin_distantControlGraph branch?_distantSearch_three rfl rfl (by decide)
    (Nat.le_succ 2)
  exact ⟨by decide, htwo, hthree⟩

end ImageRecipe.Tracing
