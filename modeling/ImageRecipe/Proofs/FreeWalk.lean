import ImageRecipe.Proofs.BuiltinLibrary
import ImageRecipe.Proofs.VisitEquations

/-!
# Searches as free walks

A free walk follows the plans of the nodes with nothing to stop it: it does not
remember where it was and counts neither depth nor length, so it may go round a
cycle for ever. For a parameter that lies on one path, a search finds exactly
the value at which the free walk ends, provided that walk repeats no node and
stays within both ceilings.
-/
namespace ImageRecipe.Tracing

open Workflow

/-- What a walk does at a node when depth is not counted. -/
inductive Move where
  | ends (value : Option Json)
  | onward (target : Link)
  deriving Repr

/-- The move that a step makes. -/
def Step.move : Step → Move
  | .answer value => .ends value
  | .follow target _ => .onward target

/-- The step that a move makes if the next node is `next` deep. -/
def Move.step (next : Nat) : Move → Step
  | .ends value => .answer value
  | .onward target => .follow target next

/-- The move at a node that was reached through an output slot: that of the only step of its
plan. -/
def Search.move (search : Search) (param : Param) (node : Node) (slot : Option UInt32) : Move :=
  match planFor search param node slot 0 with
  | .single s => s.move
  | _ => .ends none

/-- The walk from the node `id` along moves, through the nodes of `path`, up to a value. Nothing
but the nodes themselves decides where it goes. -/
inductive FreeWalk (search : Search) (param : Param) :
    String → Option UInt32 → List Node → Json → Prop
  | here {id : String} {slot : Option UInt32} {node : Node} {value : Json}
      (hn : search.graph.node? id = some node)
      (hm : search.move param node slot = .ends (some value)) :
      FreeWalk search param id slot [node] value
  | onward {id : String} {slot : Option UInt32} {node : Node} {target : Link}
      {path : List Node} {value : Json} (hn : search.graph.node? id = some node)
      (hm : search.move param node slot = .onward target)
      (hw : FreeWalk search param target.source (some target.slot) path value) :
      FreeWalk search param id slot (node :: path) value

/-- Whether an active node is left through its pass-through: it has a description without a rule
for the parameter and without a switch. -/
def passesFreely (library : NodeLibrary) (param : Param) (node : Node) : Bool :=
  !node.mode.isSkipped &&
    match library.get? node.classType with
    | some d => (d.rule? param).isNone && d.switch.isNone
    | none => false

/-- The depth behind a node at some depth: one more, or the same but not zero if the node is left
through its pass-through. -/
def depthBehind (library : NodeLibrary) (param : Param) (node : Node) (depth : Nat) : Nat :=
  if passesFreely library param node then max depth 1 else depth + 1

/-- The depths of the nodes of a path whose first node is at `depth`. -/
def countedDepths (library : NodeLibrary) (param : Param) : Nat → List Node → List Nat
  | _, [] => []
  | depth, node :: path =>
    depth :: countedDepths library param (depthBehind library param node depth) path

lemma depthBehind_le_succ (library : NodeLibrary) (param : Param) (node : Node) (depth : Nat) :
    depthBehind library param node depth ≤ depth + 1 := by
  unfold depthBehind
  split <;> omega

lemma lt_of_mem_countedDepths {library : NodeLibrary} {param : Param} {path : List Node}
    {depth k : Nat} (h : k ∈ countedDepths library param depth path) :
    k < depth + path.length := by
  induction path generalizing depth with
  | nil => simp [countedDepths] at h
  | cons node path ih =>
    rw [List.length_cons]
    rcases List.mem_cons.mp h with rfl | h
    · omega
    · have hk := ih h
      have hle := depthBehind_le_succ library param node depth
      omega

lemma toInput_eq_move_step (node : Node) (name : String) (depth : Nat) :
    Step.toInput node name depth = (Step.toInput node name 0).move.step (depth + 1) := by
  unfold Step.toInput
  split <;> rfl

lemma toWidget_eq_move_step (library : NodeLibrary) (node : Node) (name : String) (depth : Nat) :
    Step.toWidget library node name depth =
      (Step.toWidget library node name 0).move.step (depth + 1) := by
  unfold Step.toWidget
  split <;> rfl

lemma through_eq_move_step (definition : Option Definition) (node : Node) (slot : Option UInt32)
    (depth : Nat) : Step.through definition node slot depth =
      (Step.through definition node slot 0).move.step (depth + 1) := by
  cases definition with
  | none =>
    cases h : node.firstLink? with
    | none => simp [Step.through, h, Step.nothing, Step.move, Move.step]
    | some link => simpa [Step.through, h] using toInput_eq_move_step node link.input depth
  | some d =>
    cases h : d.bypassInput? node slot with
    | none => simp [Step.through, h, Step.nothing, Step.move, Move.step]
    | some input => simpa [Step.through, h] using toInput_eq_move_step node input depth

lemma guess_eq_move_step (param : Param) (node : Node) (depth : Nat) :
    Step.guess param node depth = (Step.guess param node 0).move.step (depth + 1) := by
  unfold Step.guess
  cases param.aliases.findSome? node.literal? with
  | some value => rfl
  | none =>
    cases param.hints.findSome? node.link? with
    | some target => rfl
    | none =>
      cases node.firstLink? with
      | some link => exact toInput_eq_move_step node link.input depth
      | none => rfl

/-- The control of a switch is read at any depth alike if it is not linked. -/
lemma throughSwitch_eq_move_step (search : Search) (switch : Switch) (node : Node)
    (h : node.link? switch.control = none) (depth : Nat) :
    Step.throughSwitch search switch node depth =
      (Step.throughSwitch search switch node 0).move.step (depth + 1) := by
  simp only [Step.throughSwitch, control?, h]
  split
  · exact toInput_eq_move_step node _ depth
  · rfl

variable {graph : Graph} {settings : Settings} {param : Param} {node : Node}

/-- A rule that reads one place gives one step, which counts a link as one level. -/
lemma rulePlan_eq_single {library : NodeLibrary} {d : Definition} {rule : Rule}
    (h : rule.readsOnePlace = true) (slot : Option UInt32) :
    ∃ move : Move, ∀ depth,
      rulePlan library d node slot depth rule = .single (move.step (depth + 1)) := by
  cases rule with
  | widget name gathers =>
    cases gathers with
    | false => exact ⟨_, fun depth => congrArg _ (toWidget_eq_move_step library node name depth)⟩
    | true => simp [Rule.readsOnePlace] at h
  | trace input => exact ⟨_, fun depth => congrArg _ (toInput_eq_move_step node input depth)⟩
  | literal name => exact ⟨.ends (ownValue? library node name), fun _ => rfl⟩
  | extract extractor => simp [Rule.readsOnePlace] at h

/-- A node without a rule is a switch, or is passed through at no cost, or is a dead end. -/
lemma unruledPlan_eq_single {search : Search} {d : Definition} (slot : Option UInt32)
    (h : ∀ switch ∈ d.switch, node.link? switch.control = none) :
    ∃ move : Move, ∀ depth, unruledPlan search d node slot depth =
      .single (move.step (if d.switch.isNone then max depth 1 else depth + 1)) := by
  unfold unruledPlan
  cases hs : d.switch with
  | some switch =>
    exact ⟨_, fun depth => congrArg _
      (throughSwitch_eq_move_step search switch node (h switch hs) depth)⟩
  | none =>
    by_cases hp : d.passThrough.isEmpty = true
    · exact ⟨.ends none, fun _ => by simp [hp, Plan.nothing, Step.nothing, Move.step]⟩
    · refine ⟨(Step.through (some d) node slot 0).move, fun depth => ?_⟩
      have hd : depth - 1 + 1 = max depth 1 := by omega
      simp only [hp, Bool.false_eq_true, if_false, Option.isNone_none, if_true]
      rw [through_eq_move_step, hd]

lemma unknownPlan_eq_single (search : Search) :
    ∃ move : Move, ∀ depth,
      unknownPlan search param node depth = .single (move.step (depth + 1)) := by
  unfold unknownPlan
  cases search.heuristics with
  | false => exact ⟨.ends none, fun _ => rfl⟩
  | true =>
    cases if param = .seed then offsetSeed? node else none with
    | some seed => exact ⟨.ends (some (.ofNatural seed)), fun _ => rfl⟩
    | none => exact ⟨_, fun depth => congrArg _ (guess_eq_move_step param node depth)⟩

lemma move_step_move (move : Move) (next : Nat) : (move.step next).move = move := by
  cases move <;> rfl

/-- At any depth the plan of a node is the one step that its move makes, and that step counts
depth as it is to be counted. -/
theorem planFor_eq_single (hp : param ∈ Param.onOnePath)
    (hc : graph.ControlsUnlinked .builtin) (hn : node ∈ graph.nodes) (slot : Option UInt32)
    (depth : Nat) :
    planFor (.ofSettings graph .builtin settings) param node slot depth =
      .single (((Search.ofSettings graph .builtin settings).move param node slot).step
        (depthBehind .builtin param node depth)) := by
  let search := Search.ofSettings graph .builtin settings
  suffices h : ∃ move : Move, ∀ depth, planFor search param node slot depth =
      .single (move.step (depthBehind .builtin param node depth)) by
    obtain ⟨move, hmove⟩ := h
    have hm : search.move param node slot = move := by
      simp only [Search.move, hmove 0, move_step_move]
    rw [hm]
    exact hmove depth
  have hlib : search.library = NodeLibrary.builtin := rfl
  cases hs : node.mode.isSkipped with
  | true =>
    simp only [planFor_skipped hs, depthBehind, passesFreely, hs, Bool.not_true, Bool.false_and,
      Bool.false_eq_true, if_false]
    exact ⟨_, fun depth => congrArg _ (through_eq_move_step _ node slot depth)⟩
  | false =>
    cases hd : NodeLibrary.builtin.get? node.classType with
    | none =>
      simp only [planFor_unknown hs (hlib ▸ hd), depthBehind, passesFreely, hd, Bool.and_false,
        Bool.false_eq_true, if_false]
      exact unknownPlan_eq_single search
    | some d =>
      cases hr : d.rule? param with
      | some rule =>
        simp only [planFor_ruled hs (hlib ▸ hd) hr, depthBehind, passesFreely, hd, hr,
          Option.isNone_some, Bool.false_and, Bool.and_false, Bool.false_eq_true, if_false]
        exact rulePlan_eq_single (NodeLibrary.readsOnePlace_of_builtin hd hp hr) slot
      | none =>
        simp only [planFor_unruled hs (hlib ▸ hd) hr, depthBehind, passesFreely, hs, hd, hr,
          Option.isNone_none, Bool.not_false, Bool.true_and]
        exact unruledPlan_eq_single slot (hc node hn d hd)

lemma run_visit_found_move {room : Nat} {id : String} {slot : Option UInt32} {depth : Nat}
    {trail : Trail} (hp : param ∈ Param.onOnePath) (hc : graph.ControlsUnlinked .builtin)
    (h : ¬ (Search.ofSettings graph .builtin settings).Refuses id depth trail)
    (hn : graph.node? id = some node) :
    ((Search.ofSettings graph .builtin settings).visit param (room + 1) id slot depth).run trail =
      match (Search.ofSettings graph .builtin settings).move param node slot with
      | .ends value => (value, trail.enter id)
      | .onward target =>
        ((Search.ofSettings graph .builtin settings).visit param room target.source target.slot
          (depthBehind .builtin param node depth)).run (trail.enter id) := by
  rw [Search.run_visit_found _ param h hn,
    planFor_eq_single hp hc (Graph.mem_of_node? hn), Walk.run_carryOut_single]
  cases (Search.ofSettings graph .builtin settings).move param node slot <;> rfl

/-- Induction on the room that is left: what a visit finds lies at the end of a free walk that
avoids the visited nodes. -/
lemma freeWalk_of_visit (hp : param ∈ Param.onOnePath) (hc : graph.ControlsUnlinked .builtin)
    {room : Nat} {id : String} {slot : Option UInt32} {depth : Nat} {trail : Trail} {value : Json}
    (h : (((Search.ofSettings graph .builtin settings).visit param room id slot depth).run
      trail).1 = some value) :
    ∃ path, FreeWalk (.ofSettings graph .builtin settings) param id slot path value ∧
      (path.map Node.id).Nodup ∧ (∀ node ∈ path, node.id ∉ trail.visited) ∧
      path.length ≤ room ∧ ∀ k ∈ countedDepths .builtin param depth path,
        k ≤ (Search.ofSettings graph .builtin settings).maxDepth := by
  induction room generalizing id slot depth trail with
  | zero => simp at h
  | succ room ih =>
    by_cases hr : (Search.ofSettings graph .builtin settings).Refuses id depth trail
    · rw [Search.run_visit_refused _ param hr] at h
      simp at h
    cases hn : graph.node? id with
    | none =>
      rw [Search.run_visit_missing _ param hr hn] at h
      simp at h
    | some node =>
      rw [run_visit_found_move hp hc hr hn] at h
      have hid : node.id = id := Graph.id_of_node? hn
      obtain ⟨hdepth, hfresh⟩ := not_or.mp hr
      cases hm : (Search.ofSettings graph .builtin settings).move param node slot with
      | ends found =>
        simp only [hm] at h
        subst h
        refine ⟨[node], .here hn hm, by simp, by simpa [hid] using hfresh, by simp, ?_⟩
        simpa [countedDepths] using Nat.not_lt.mp hdepth
      | onward target =>
        simp only [hm] at h
        obtain ⟨path, hw, hnodup, havoid, hlen, hdepths⟩ := ih h
        simp only [Trail.visited_enter, List.mem_cons, not_or] at havoid
        refine ⟨node :: path, .onward hn hm hw, ?_, ?_, by simpa using hlen, ?_⟩
        · rw [List.map_cons, List.nodup_cons, hid]
          refine ⟨fun hmem => ?_, hnodup⟩
          obtain ⟨other, hother, heq⟩ := List.mem_map.mp hmem
          exact (havoid other hother).1 heq
        · intro other hother
          rcases List.mem_cons.mp hother with rfl | hother
          · rwa [hid]
          · exact (havoid other hother).2
        · intro k hk
          rcases List.mem_cons.mp hk with rfl | hk
          · exact Nat.not_lt.mp hdepth
          · exact hdepths k hk

/-- Induction on the free walk: a visit with room for it goes along with it. -/
lemma visit_of_freeWalk (hp : param ∈ Param.onOnePath) (hc : graph.ControlsUnlinked .builtin)
    {id : String} {slot : Option UInt32} {path : List Node} {value : Json}
    (hw : FreeWalk (.ofSettings graph .builtin settings) param id slot path value)
    {room depth : Nat} {trail : Trail} (hnodup : (path.map Node.id).Nodup)
    (havoid : ∀ node ∈ path, node.id ∉ trail.visited) (hlen : path.length ≤ room)
    (hdepths : ∀ k ∈ countedDepths .builtin param depth path,
      k ≤ (Search.ofSettings graph .builtin settings).maxDepth) :
    (((Search.ofSettings graph .builtin settings).visit param room id slot depth).run trail).1 =
      some value := by
  induction hw generalizing room depth trail with
  | @here id slot node value hn hm =>
    obtain ⟨room, rfl⟩ : ∃ r, room = r + 1 := ⟨room - 1, by simp at hlen; omega⟩
    have hr : ¬ (Search.ofSettings graph .builtin settings).Refuses id depth trail := by
      refine not_or.mpr ⟨Nat.not_lt.mpr (hdepths depth (by simp [countedDepths])), ?_⟩
      simpa [Graph.id_of_node? hn] using havoid node
    rw [run_visit_found_move hp hc hr hn, hm]
  | @onward id slot node target path value hn hm hw ih =>
    obtain ⟨room, rfl⟩ : ∃ r, room = r + 1 := ⟨room - 1, by simp at hlen; omega⟩
    have hid : node.id = id := Graph.id_of_node? hn
    have hr : ¬ (Search.ofSettings graph .builtin settings).Refuses id depth trail := by
      refine not_or.mpr ⟨Nat.not_lt.mpr (hdepths depth (by simp [countedDepths])), ?_⟩
      simpa [hid] using havoid node
    rw [run_visit_found_move hp hc hr hn, hm]
    rw [List.map_cons, List.nodup_cons] at hnodup
    refine ih hnodup.2 ?_ (by simpa using hlen) fun k hk => hdepths k (List.mem_cons_of_mem _ hk)
    intro other hother hmem
    rcases List.mem_cons.mp hmem with heq | hmem
    · exact hnodup.1 (List.mem_map.mpr ⟨other, hother, heq.trans hid.symm⟩)
    · exact havoid other (List.mem_cons_of_mem _ hother) hmem

/-- The free walk from a node ends in a value after distinct nodes, at most `2 * d` of them, none
of them more than `d` deep. -/
def EndsWithin (search : Search) (param : Param) (d : Nat) (start : String) (value : Json) :
    Prop :=
  ∃ path, FreeWalk search param start none path value ∧ (path.map Node.id).Nodup ∧
    path.length ≤ 2 * d ∧ ∀ depth ∈ countedDepths search.library param 0 path, depth ≤ d

/-- A parameter that lies on one path is found exactly where the free walk ends within the
ceilings, and is not found otherwise. -/
theorem resolve_eq_some_iff_endsWithin (graph : Graph) (settings : Settings) (param : Param)
    (hp : param ∈ Param.onOnePath) (hc : graph.ControlsUnlinked .builtin)
    (hpos : 1 ≤ settings.maxDepth) (hle : settings.maxDepth ≤ 128) (start : String)
    (trail : Trail) :
    (∀ value, (((Search.ofSettings graph .builtin settings).resolve start param).run trail).1 =
        some value ↔
      EndsWithin (.ofSettings graph .builtin settings) param settings.maxDepth start value) ∧
    ((∀ value, ¬ EndsWithin (.ofSettings graph .builtin settings) param settings.maxDepth start
        value) →
      (((Search.ofSettings graph .builtin settings).resolve start param).run trail).1 = none) := by
  have hmax : (Search.ofSettings graph .builtin settings).maxDepth = settings.maxDepth := by
    rw [Search.maxDepth_ofSettings, Fault.depthLimit]
    omega
  have hpath : (Search.ofSettings graph .builtin settings).maxPath = 2 * settings.maxDepth := by
    rw [Search.maxPath, hmax]
  have hiff : ∀ value,
      (((Search.ofSettings graph .builtin settings).resolve start param).run trail).1 =
        some value ↔
      EndsWithin (.ofSettings graph .builtin settings) param settings.maxDepth start value := by
    intro value
    rw [Search.run_resolve]
    constructor
    · intro h
      obtain ⟨path, hw, hnodup, -, hlen, hdepths⟩ := freeWalk_of_visit hp hc h
      exact ⟨path, hw, hnodup, hpath ▸ hlen, hmax ▸ hdepths⟩
    · rintro ⟨path, hw, hnodup, hlen, hdepths⟩
      exact visit_of_freeWalk hp hc hw hnodup (by simp) (hpath ▸ hlen) (hmax ▸ hdepths)
  refine ⟨hiff, fun h => ?_⟩
  rw [Option.eq_none_iff_forall_ne_some]
  exact fun value hv => h value ((hiff value).mp hv)

/-- A sampler that feeds itself, and that refers to a node that is not there. -/
def loopedSampler : Node :=
  ⟨"1", "KSampler", none, [("model", .link ⟨"1", 0⟩), ("positive", .link ⟨"0", 0⟩),
    ("steps", .literal (.num (.int 20)))], [], .active⟩

def rerouteOfLoop : Node := ⟨"2", "Reroute", none, [("", .link ⟨"1", 0⟩)], [], .active⟩

def saveOfLoop : Node := ⟨"3", "SaveImage", none, [("images", .link ⟨"2", 0⟩)], [], .active⟩

def loopedGraph : Graph := .ofNodes [loopedSampler, rerouteOfLoop, saveOfLoop]

theorem resolve_loopedGraph :
    (Param.steps ∈ Param.onOnePath ∧ loopedGraph.ControlsUnlinked .builtin) ∧
      (((Search.ofSettings loopedGraph .builtin {}).resolve "3" .steps).run .empty).1 =
        some (.num (.int 20)) := by
  have hsampler : NodeLibrary.builtin.get? "KSampler" = some Catalogue.kSampler :=
    NodeLibrary.get?_builtin_of_mem (d := Catalogue.kSampler)
      (by simp [NodeLibrary.catalogues, Catalogue.sampling])
  have hreroute : NodeLibrary.builtin.get? "Reroute" = some (Catalogue.reroute "Reroute") :=
    NodeLibrary.get?_builtin_of_mem (d := Catalogue.reroute "Reroute")
      (by simp [NodeLibrary.catalogues, Catalogue.wiring])
  have hsave : NodeLibrary.builtin.get? "SaveImage" =
      some (Catalogue.imageSink "SaveImage" .output ["filename_prefix"]) :=
    NodeLibrary.get?_builtin_of_mem
      (d := Catalogue.imageSink "SaveImage" .output ["filename_prefix"])
      (by simp [NodeLibrary.catalogues, Catalogue.images])
  have hp : Param.steps ∈ Param.onOnePath := by decide
  have hc : loopedGraph.ControlsUnlinked .builtin := by
    intro node hnode d hd switch hswitch
    have hnodes : loopedGraph.nodes = [loopedSampler, rerouteOfLoop, saveOfLoop] := rfl
    rw [hnodes, List.mem_cons, List.mem_cons, List.mem_singleton] at hnode
    rcases hnode with rfl | rfl | rfl
    · cases hsampler.symm.trans hd
      cases hswitch
    · cases hreroute.symm.trans hd
      cases hswitch
    · cases hsave.symm.trans hd
      cases hswitch
  let search := Search.ofSettings loopedGraph .builtin {}
  have hthird : planFor search .steps saveOfLoop none 0 =
      rulePlan .builtin (Catalogue.imageSink "SaveImage" .output ["filename_prefix"]) saveOfLoop
        none 0 (.trace "images") := planFor_ruled rfl hsave rfl
  have hsecond : planFor search .steps rerouteOfLoop (some 0) 0 =
      unruledPlan search (Catalogue.reroute "Reroute") rerouteOfLoop (some 0) 0 :=
    planFor_unruled rfl hreroute rfl
  have hfirst : planFor search .steps loopedSampler (some 0) 0 =
      rulePlan .builtin Catalogue.kSampler loopedSampler (some 0) 0 (.widget "steps" false) :=
    planFor_ruled rfl hsampler rfl
  refine ⟨⟨hp, hc⟩, ((resolve_eq_some_iff_endsWithin loopedGraph {} .steps hp hc (by decide)
    (by decide) "3" .empty).1 _).mpr ⟨[saveOfLoop, rerouteOfLoop, loopedSampler], ?_, ?_, ?_, ?_⟩⟩
  · have hm₃ : search.move .steps saveOfLoop none = .onward ⟨"2", 0⟩ := by
      rw [Search.move, hthird]
      rfl
    have hm₂ : search.move .steps rerouteOfLoop (some 0) = .onward ⟨"1", 0⟩ := by
      rw [Search.move, hsecond]
      rfl
    have hm₁ : search.move .steps loopedSampler (some 0) = .ends (some (.num (.int 20))) := by
      rw [Search.move, hfirst]
      rfl
    exact .onward rfl hm₃ (.onward rfl hm₂ (.here rfl hm₁))
  · decide
  · decide
  · intro depth hdepth
    have hlt := lt_of_mem_countedDepths hdepth
    simp only [List.length_cons, List.length_nil] at hlt
    change depth ≤ 64
    omega

end ImageRecipe.Tracing
