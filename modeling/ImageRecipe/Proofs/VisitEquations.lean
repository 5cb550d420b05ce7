import ImageRecipe.Tracing.Walk
import Mathlib.Tactic.Common

/-!
# What a visit does

Each theorem runs one function of a walk on a trail and says what comes out. A
visit is refused, or finds no node, or carries out the plan of its node; later
proofs go through these equations and do not open the functions.
-/
namespace ImageRecipe.Tracing

open Workflow

@[simp] theorem Trail.visited_enter (trail : Trail) (id : String) :
    (trail.enter id).visited = id :: trail.visited := rfl

@[simp] theorem Trail.gathered_enter (trail : Trail) (id : String) :
    (trail.enter id).gathered = trail.gathered := rfl

@[simp] theorem Trail.visited_gather (trail : Trail) (id : String) (value : Json) :
    (trail.gather id value).visited = trail.visited := rfl

section Plans

variable {search : Search} {param : Param} {node : Node} {slot : Option UInt32} {depth : Nat}

theorem planFor_skipped (hs : node.mode.isSkipped = true) :
    planFor search param node slot depth =
      .single (.through (search.library.get? node.classType) node slot depth) := by
  simp [planFor, hs]

theorem planFor_unknown (hs : node.mode.isSkipped = false)
    (hd : search.library.get? node.classType = none) :
    planFor search param node slot depth = unknownPlan search param node depth := by
  simp [planFor, hs, hd]

theorem planFor_ruled {d : Definition} {rule : Rule} (hs : node.mode.isSkipped = false)
    (hd : search.library.get? node.classType = some d) (hr : d.rule? param = some rule) :
    planFor search param node slot depth =
      rulePlan search.library d node slot depth rule := by
  simp [planFor, hs, hd, hr]

theorem planFor_unruled {d : Definition} (hs : node.mode.isSkipped = false)
    (hd : search.library.get? node.classType = some d) (hr : d.rule? param = none) :
    planFor search param node slot depth = unruledPlan search d node slot depth := by
  simp [planFor, hs, hd, hr]

/-- The rules that gather. -/
theorem gathers_of_rulePlan {library : NodeLibrary} {d : Definition} {rule : Rule}
    {entries : List Step} {onward : Step}
    (h : rulePlan library d node slot depth rule = .gather entries onward) :
    (∃ name, rule = .widget name true) ∨ rule = .extract .loraList := by
  cases rule with
  | widget name gathers =>
    cases gathers with
    | true => exact .inl ⟨name, rfl⟩
    | false => cases h
  | trace input => cases h
  | literal name => cases h
  | extract extractor =>
    cases extractor with
    | loraList => exact .inr rfl
    | joinWidgets names => cases h
    | joinInputs names => cases h
    | concatenate => cases h
    | scaledSize => cases h

/-- A plan that gathers is the plan of a rule, at a node that runs. -/
theorem exists_rulePlan_of_gather {entries : List Step} {onward : Step}
    (h : planFor search param node slot depth = .gather entries onward) :
    node.mode.isSkipped = false ∧ ∃ d rule, search.library.get? node.classType = some d ∧
      d.rule? param = some rule ∧
      rulePlan search.library d node slot depth rule = .gather entries onward := by
  cases hs : node.mode.isSkipped with
  | true =>
    rw [planFor_skipped hs] at h
    cases h
  | false =>
    refine ⟨rfl, ?_⟩
    cases hd : search.library.get? node.classType with
    | none =>
      rw [planFor_unknown hs hd, unknownPlan] at h
      split at h
      · split at h <;> cases h
      · cases h
    | some d =>
      cases hr : d.rule? param with
      | none =>
        rw [planFor_unruled hs hd hr, unruledPlan] at h
        split at h
        · cases h
        · split at h <;> cases h
      | some rule => exact ⟨d, rule, rfl, hr, (planFor_ruled hs hd hr).symm.trans h⟩

end Plans

namespace Walk

variable (visit : Link → Nat → Walk (Option Json)) (id : String) (trail : Trail)

@[simp] theorem run_step_answer (value : Option Json) :
    (step visit (.answer value)).run trail = (value, trail) := rfl

@[simp] theorem run_step_follow (target : Link) (depth : Nat) :
    (step visit (.follow target depth)).run trail = (visit target depth).run trail := rfl

@[simp] theorem run_carryOut_single (s : Step) :
    (carryOut visit id (.single s)).run trail = (step visit s).run trail := rfl

/-- What holds of every visit and of noting a value, and is kept when one walk follows another,
holds of carrying out a plan. -/
theorem carryOut_of_visits {visit : Link → Nat → Walk (Option Json)} {id : String} {plan : Plan}
    {holds : ∀ {α : Type}, Walk α → Prop} (hpure : ∀ {α : Type} (a : α), holds (pure a : Walk α))
    (hbind : ∀ {α β : Type} {walk : Walk α} {next : α → Walk β},
      holds walk → (∀ a, holds (next a)) → holds (walk >>= next))
    (hvisit : ∀ target depth, holds (visit target depth))
    (hgather : ∀ entries onward, plan = .gather entries onward →
      ∀ value, holds (modify (·.gather id value) : Walk Unit)) :
    holds (carryOut visit id plan) := by
  have hstep : ∀ s, holds (step visit s) := by
    intro s
    cases s with
    | answer value => exact hpure value
    | follow target depth => exact hvisit target depth
  cases plan with
  | single s => exact hstep s
  | gather entries onward =>
    have hnote : ∀ entry, holds (note visit id entry) := by
      intro entry
      refine hbind (hstep entry) fun value => ?_
      cases value with
      | none => exact hpure ()
      | some value => exact hgather entries onward rfl value
    have hentries : holds (entries.forM (note visit id)) := by
      clear hgather
      induction entries with
      | nil => exact hpure ()
      | cons entry entries ih => exact hbind (hnote entry) fun _ => ih
    exact hbind hentries fun _ => hstep onward
  | join separator parts =>
    have hparts : holds (parts.mapM (step visit)) := by
      clear hgather
      induction parts with
      | nil => exact hpure []
      | cons part parts ih =>
        rw [List.mapM_cons]
        exact hbind (hstep part) fun value => hbind ih fun values => hpure (value :: values)
    exact hbind hparts fun values => hpure (joined? separator values)
  | scale factor base => exact hbind (hstep base) fun value => hpure (scaled? factor value)

end Walk

namespace Search

variable (search : Search) (param : Param)

/-- The visit of the node behind a link, with room for `room` more nodes on the path. -/
def visitBehind (room : Nat) (target : Link) (depth : Nat) : Walk (Option Json) :=
  search.visit param room target.source target.slot depth

/-- Whether a visit at some depth is refused: it is too deep, or the node was visited. -/
def Refuses (id : String) (depth : Nat) (trail : Trail) : Prop :=
  search.maxDepth < depth ∨ id ∈ trail.visited

@[simp] theorem run_visit_zero (id : String) (slot : Option UInt32) (depth : Nat)
    (trail : Trail) : (search.visit param 0 id slot depth).run trail = (none, trail) := rfl

theorem run_visit_refused {room : Nat} {id : String} {slot : Option UInt32} {depth : Nat}
    {trail : Trail} (h : search.Refuses id depth trail) :
    (search.visit param (room + 1) id slot depth).run trail = (none, trail) := by
  have hb : (decide (depth > search.maxDepth) || trail.visited.contains id) = true := by
    simpa [Refuses] using h
  simp only [visit, StateT.run_bind, StateT.run_get, pure_bind, hb, if_true]
  rfl

/-- A visit that is not refused enters its node before anything else. -/
theorem run_visit_entered {room : Nat} {id : String} {slot : Option UInt32} {depth : Nat}
    {trail : Trail} (h : ¬ search.Refuses id depth trail) :
    (search.visit param (room + 1) id slot depth).run trail =
      match search.graph.node? id with
      | none => (none, trail.enter id)
      | some node =>
        (Walk.carryOut (search.visitBehind param room) id
          (planFor search param node slot depth)).run (trail.enter id) := by
  have hb : (decide (depth > search.maxDepth) || trail.visited.contains id) = false := by
    simpa [Refuses] using h
  simp only [visit, StateT.run_bind, StateT.run_get, pure_bind, hb]
  cases search.graph.node? id <;> rfl

theorem run_visit_missing {room : Nat} {id : String} {slot : Option UInt32} {depth : Nat}
    {trail : Trail} (h : ¬ search.Refuses id depth trail) (hn : search.graph.node? id = none) :
    (search.visit param (room + 1) id slot depth).run trail = (none, trail.enter id) := by
  rw [run_visit_entered search param h, hn]

theorem run_visit_found {room : Nat} {id : String} {slot : Option UInt32} {depth : Nat}
    {trail : Trail} {node : Node} (h : ¬ search.Refuses id depth trail)
    (hn : search.graph.node? id = some node) :
    (search.visit param (room + 1) id slot depth).run trail =
      (Walk.carryOut (search.visitBehind param room) id
        (planFor search param node slot depth)).run (trail.enter id) := by
  rw [run_visit_entered search param h, hn]

theorem run_visit_single {room : Nat} {id : String} {slot : Option UInt32} {depth : Nat}
    {trail : Trail} {node : Node} {step : Step} (h : ¬ search.Refuses id depth trail)
    (hn : search.graph.node? id = some node)
    (hp : planFor search param node slot depth = .single step) :
    (search.visit param (room + 1) id slot depth).run trail =
      (Walk.step (search.visitBehind param room) step).run (trail.enter id) := by
  rw [run_visit_found search param h hn, hp, Walk.run_carryOut_single]

theorem run_resolve (start : String) (trail : Trail) :
    (search.resolve start param).run trail =
      (search.visit param search.maxPath start none 0).run { trail with visited := [] } := rfl

theorem run_first_cons {α : Type} (read : Json → Option α) (sink : Node) (rest : List Node)
    (trail : Trail) : (search.first param read (sink :: rest)).run trail =
      match ((search.resolve sink.id param).run trail).1.bind read with
      | some x => (some x, ((search.resolve sink.id param).run trail).2)
      | none =>
        (search.first param read rest).run ((search.resolve sink.id param).run trail).2 := by
  rw [first, StateT.run_bind]
  cases h : ((search.resolve sink.id param).run trail).1.bind read with
  | some x =>
    simp only [bind, h]
    rfl
  | none => simp only [bind, h]

theorem run_collect_cons (sink : Node) (rest : List Node) (trail : Trail) :
    (search.collect param (sink :: rest)).run trail =
      let after := ((search.resolve sink.id param).run { trail with gathered := [] }).2
      if after.gathered.isEmpty then (search.collect param rest).run after
      else (after.gathered, { after with gathered := [] }) := by
  let after := ((search.resolve sink.id param).run { trail with gathered := [] }).2
  change (if after.gathered.isEmpty then search.collect param rest else takeGathered).run
    after = if after.gathered.isEmpty then _ else _
  by_cases h : after.gathered.isEmpty = true
  · rw [if_pos h, if_pos h]
  · rw [if_neg h, if_neg h]
    rfl

@[simp] theorem maxDepth_ofSettings (graph : Graph) (library : NodeLibrary)
    (settings : Settings) : (ofSettings graph library settings).maxDepth =
      max 1 (min settings.maxDepth Fault.depthLimit) := rfl

end Search

end ImageRecipe.Tracing

namespace ImageRecipe.Workflow.Graph

theorem id_of_node? {graph : Graph} {id : String} {node : Node}
    (h : graph.node? id = some node) : node.id = id := by
  have hb : (node.id == id) = true := List.find?_some (p := fun n : Node => n.id == id) h
  simpa using hb

theorem mem_of_node? {graph : Graph} {id : String} {node : Node}
    (h : graph.node? id = some node) : node ∈ graph.nodes := List.mem_of_find?_eq_some h

end ImageRecipe.Workflow.Graph
