import ImageRecipe.Proofs.VisitEquations
import ImageRecipe.Tracing.Interpretation

/-!
# Searches one after the other

The trail is handed on from one search to the next: with the nodes that a step
on its own left there as visited, and with the values that were gathered. A
search from a node begins with no node visited and all its room, and no walk
looks at the values that are gathered already. So whatever was done before, a
search finds what a first one finds, and the facts of a workflow may be looked up
in any order.
-/
namespace ImageRecipe

namespace Tracing

open Workflow

/-- The trail behind values that were gathered earlier. -/
def Trail.behind (earlier : List (String × Json)) (trail : Trail) : Trail :=
  { trail with gathered := earlier ++ trail.gathered }

/-- Behind values that were gathered earlier a walk does the same as without them. -/
def Walk.IgnoresGathered {α : Type} (walk : Walk α) : Prop :=
  ∀ earlier trail, walk.run (trail.behind earlier) =
    ((walk.run trail).1, (walk.run trail).2.behind earlier)

lemma ignoresGathered_bind {α β : Type} {walk : Walk α} {next : α → Walk β}
    (hw : walk.IgnoresGathered) (hn : ∀ a, (next a).IgnoresGathered) :
    (walk >>= next).IgnoresGathered := by
  intro earlier trail
  have hbind : ∀ trail, (walk >>= next).run trail =
      (next (walk.run trail).1).run (walk.run trail).2 := fun _ => rfl
  rw [hbind, hbind, hw, hn]

lemma ignoresGathered_gather (id : String) (value : Json) :
    (modify (·.gather id value) : Walk Unit).IgnoresGathered := by
  intro earlier trail
  have hgather : (trail.behind earlier).gather id value =
      (trail.gather id value).behind earlier := by
    simp only [Trail.behind, Trail.gather, List.append_assoc]
  exact congrArg (Prod.mk ()) hgather

variable {search : Search} {param : Param}

/-- Induction on the room that is left. That a visit is refused hangs on the visited nodes only,
and these are the same. -/
theorem ignoresGathered_visit (room : Nat) (id : String) (slot : Option UInt32) (depth : Nat) :
    (search.visit param room id slot depth).IgnoresGathered := by
  induction room generalizing id slot depth with
  | zero => exact fun _ _ => rfl
  | succ room ih =>
    intro earlier trail
    by_cases hr : search.Refuses id depth trail
    · have hr' : search.Refuses id depth (trail.behind earlier) := hr
      rw [Search.run_visit_refused search param hr, Search.run_visit_refused search param hr']
    have hr' : ¬ search.Refuses id depth (trail.behind earlier) := hr
    rw [Search.run_visit_entered search param hr, Search.run_visit_entered search param hr']
    cases search.graph.node? id with
    | none => rfl
    | some node =>
      have hplan : (Walk.carryOut (search.visitBehind param room) id
          (planFor search param node slot depth)).IgnoresGathered :=
        Walk.carryOut_of_visits (fun _ _ _ => rfl) ignoresGathered_bind
          (fun target depth => ih target.source target.slot depth)
          (fun _ _ _ value => ignoresGathered_gather id value)
      exact hplan earlier (trail.enter id)

/-- A search does what it does on an empty trail and appends what it gathers. -/
theorem run_resolve_from (start : String) (trail : Trail) :
    (search.resolve start param).run trail =
      (((search.resolve start param).run .empty).1,
        ((search.resolve start param).run .empty).2.behind trail.gathered) := by
  have hclear : { trail with visited := [] } = Trail.empty.behind trail.gathered := by
    simp only [Trail.behind, Trail.empty, List.append_nil]
  rw [Search.run_resolve, Search.run_resolve, hclear]
  exact ignoresGathered_visit search.maxPath start none 0 trail.gathered .empty

lemma value_resolve_from (start : String) (trail trail' : Trail) :
    ((search.resolve start param).run trail).1 = ((search.resolve start param).run trail').1 := by
  rw [run_resolve_from start trail, run_resolve_from start trail']

/-- Induction on the sinks: each is searched from the trail that the one before it left. -/
lemma value_first_from {α : Type} (read : Json → Option α) (sinks : List Node)
    (trail trail' : Trail) :
    ((search.first param read sinks).run trail).1 =
      ((search.first param read sinks).run trail').1 := by
  induction sinks generalizing trail trail' with
  | nil => rfl
  | cons sink rest ih =>
    rw [Search.run_first_cons, Search.run_first_cons, value_resolve_from sink.id trail trail']
    cases ((search.resolve sink.id param).run trail').1.bind read with
    | some x => rfl
    | none => exact ih _ _

/-- Before each sink the gathered values are cleared, so nothing of the trail is left. -/
lemma value_collect_from (sinks : List Node) (trail trail' : Trail) :
    ((search.collect param sinks).run trail).1 = ((search.collect param sinks).run trail').1 := by
  cases sinks with
  | nil => rfl
  | cons sink rest =>
    have hclear : (search.resolve sink.id param).run { trail with gathered := [] } =
        (search.resolve sink.id param).run { trail' with gathered := [] } := rfl
    rw [Search.run_collect_cons, Search.run_collect_cons, hclear]

/-- What can be done on a trail. -/
inductive Operation where
  | resolve (start : String) (param : Param)
  | trace (node : Node) (input : String) (param : Param) (depth : Nat)
  | widget (node : Node) (name : String) (param : Param) (depth : Nat)
  | accumulate (id : String) (value : Json)
  | takeGathered
  | first {α : Type} (param : Param) (read : Json → Option α) (sinks : List Node)
  | collect (param : Param) (sinks : List Node)

/-- The walk of an operation, whatever it answers. -/
def Operation.walk (search : Search) : Operation → Walk Unit
  | .resolve start param => do let _ ← search.resolve start param
  | .trace node input param depth => do let _ ← search.trace node input param depth
  | .widget node name param depth => do let _ ← search.widget node name param depth
  | .accumulate id value => Search.accumulate id value
  | .takeGathered => do let _ ← Search.takeGathered
  | .first param read sinks => do let _ ← search.first param read sinks
  | .collect param sinks => do let _ ← search.collect param sinks

/-- The trail that operations leave, done one after the other from the empty one. -/
def Search.trailAfter (search : Search) (history : List Operation) : Trail :=
  ((history.forM (Operation.walk search)).run .empty).2

end Tracing

/-- `f` with the fact of one parameter taken from `source`. -/
def Facts.taking (source f : Facts) : Param → Facts
  | .prompt => { f with positivePrompt := source.positivePrompt }
  | .negativePrompt => { f with negativePrompt := source.negativePrompt }
  | .seed => { f with seed := source.seed }
  | .steps => { f with steps := source.steps }
  | .cfg => { f with cfg := source.cfg }
  | .width => { f with width := source.width }
  | .height => { f with height := source.height }
  | .model => { f with baseModel := source.baseModel }
  | .sampler => { f with samplerName := source.samplerName }
  | .scheduler => { f with scheduler := source.scheduler }
  | .lora => { f with loras := source.loras }
  | .vae => { f with vae := source.vae }
  | .denoise => { f with denoise := source.denoise }

namespace Facts

variable (source f : Facts)

lemma taking_self (param : Param) :
    source.taking (source.taking f param) param = source.taking f param := by
  cases param <;> rfl

lemma taking_comm (param other : Param) :
    source.taking (source.taking f param) other = source.taking (source.taking f other) param := by
  cases param <;> cases other <;> rfl

/-- Facts that keep every fact that they take from `source` are those of `source`. -/
lemma eq_of_taking_eq {f : Facts} (h : ∀ param, source.taking f param = f) : f = source := by
  have hprompt := congrArg positivePrompt (h .prompt)
  have hnegative := congrArg negativePrompt (h .negativePrompt)
  have hseed := congrArg seed (h .seed)
  have hsteps := congrArg steps (h .steps)
  have hcfg := congrArg cfg (h .cfg)
  have hwidth := congrArg width (h .width)
  have hheight := congrArg height (h .height)
  have hmodel := congrArg baseModel (h .model)
  have hsampler := congrArg samplerName (h .sampler)
  have hscheduler := congrArg scheduler (h .scheduler)
  have hloras := congrArg loras (h .lora)
  have hvae := congrArg vae (h .vae)
  have hdenoise := congrArg denoise (h .denoise)
  cases f
  cases source
  simp_all only [taking]

lemma foldl_taking (order : List Param) (param : Param) :
    source.taking (order.foldl source.taking f) param =
      order.foldl source.taking (source.taking f param) := by
  induction order generalizing f with
  | nil => rfl
  | cons other order ih => rw [List.foldl_cons, List.foldl_cons, ih, taking_comm]

lemma taking_foldl_of_mem {order : List Param} {param : Param} (h : param ∈ order) :
    source.taking (order.foldl source.taking f) param = order.foldl source.taking f := by
  induction order generalizing f with
  | nil => cases h
  | cons other order ih =>
    rcases List.mem_cons.mp h with rfl | h
    · rw [List.foldl_cons, foldl_taking, taking_self]
    · exact ih _ h

/-- Facts that are taken over in any order, every one of them, are those of `source`. -/
lemma foldl_taking_eq {order : List Param} (h : ∀ param, param ∈ order) :
    order.foldl source.taking f = source :=
  eq_of_taking_eq source fun param => taking_foldl_of_mem source f (h param)

end Facts

namespace Tracing

open Workflow

/-- Looks up the fact of one parameter and sets it in `f`. -/
def Search.lookUp (search : Search) (sinks : List Node) (f : Facts) : Param → Walk Facts
  | .prompt => return { f with positivePrompt := ← search.first .prompt textValue? sinks }
  | .negativePrompt =>
    return { f with negativePrompt := ← search.first .negativePrompt textValue? sinks }
  | .seed => return { f with seed := ← search.first .seed Seed.ofJson? sinks }
  | .steps => return { f with steps := ← search.first .steps naturalValue? sinks }
  | .cfg => return { f with cfg := ← search.first .cfg Json.looseFloat? sinks }
  | .width => return { f with width := ← search.first .width naturalValue? sinks }
  | .height => return { f with height := ← search.first .height naturalValue? sinks }
  | .model => return { f with baseModel := ← search.first .model textValue? sinks }
  | .sampler => return { f with samplerName := ← search.first .sampler textValue? sinks }
  | .scheduler => return { f with scheduler := ← search.first .scheduler textValue? sinks }
  | .lora => return { f with loras := (← search.collect .lora sinks).filterMap (lora? search) }
  | .vae => return { f with vae := ← search.first .vae textValue? sinks }
  | .denoise => return { f with denoise := ← search.first .denoise Json.looseFloat? sinks }

/-- The facts of the parameters of a list, looked up in its order. -/
def Search.factsInOrder (search : Search) (sinks : List Node) (order : List Param) : Walk Facts :=
  order.foldlM (search.lookUp sinks) {}

variable {search : Search}

/-- Wherever it begins, looking up a fact finds the one that is looked up among all. -/
lemma value_lookUp (sinks : List Node) (f : Facts) (param : Param) (trail : Trail) :
    ((search.lookUp sinks f param).run trail).1 =
      ((search.facts sinks).run .empty).1.taking f param := by
  cases param with
  | prompt => exact congrArg (fun x => { f with positivePrompt := x }) (value_first_from _ _ _ _)
  | negativePrompt =>
    exact congrArg (fun x => { f with negativePrompt := x }) (value_first_from _ _ _ _)
  | seed => exact congrArg (fun x => { f with seed := x }) (value_first_from _ _ _ _)
  | steps => exact congrArg (fun x => { f with steps := x }) (value_first_from _ _ _ _)
  | cfg => exact congrArg (fun x => { f with cfg := x }) (value_first_from _ _ _ _)
  | width => exact congrArg (fun x => { f with width := x }) (value_first_from _ _ _ _)
  | height => exact congrArg (fun x => { f with height := x }) (value_first_from _ _ _ _)
  | model => exact congrArg (fun x => { f with baseModel := x }) (value_first_from _ _ _ _)
  | sampler => exact congrArg (fun x => { f with samplerName := x }) (value_first_from _ _ _ _)
  | scheduler => exact congrArg (fun x => { f with scheduler := x }) (value_first_from _ _ _ _)
  | lora =>
    exact congrArg (fun x => { f with loras := x.filterMap (lora? search) })
      (value_collect_from _ _ _)
  | vae => exact congrArg (fun x => { f with vae := x }) (value_first_from _ _ _ _)
  | denoise => exact congrArg (fun x => { f with denoise := x }) (value_first_from _ _ _ _)

/-- Induction on the parameters that are still to be looked up. -/
lemma value_foldlM_lookUp (sinks : List Node) (order : List Param) (f : Facts) (trail : Trail) :
    ((order.foldlM (search.lookUp sinks) f).run trail).1 =
      order.foldl ((search.facts sinks).run .empty).1.taking f := by
  induction order generalizing f trail with
  | nil => rfl
  | cons param order ih =>
    have hcons : (((param :: order).foldlM (search.lookUp sinks) f).run trail).1 =
        ((order.foldlM (search.lookUp sinks) ((search.lookUp sinks f param).run trail).1).run
          ((search.lookUp sinks f param).run trail).2).1 := rfl
    rw [hcons, ih, value_lookUp, List.foldl_cons]

/-- Whatever was done before on the same trail, a search from a node finds the value that a first
search finds and appends to the gathered values what that gathers, and gathering from sinks gives
the same list. So the facts of a workflow are the same in whatever order, and after whatever other
searches, they are looked up. -/
theorem search_after_history (graph : Graph) (library : NodeLibrary) (settings : Settings)
    (history : List Operation) :
    let search := Search.ofSettings graph library settings
    let before := search.trailAfter history
    (∀ start param,
      ((search.resolve start param).run before).1 = ((search.resolve start param).run .empty).1 ∧
      ((search.resolve start param).run before).2.gathered =
        before.gathered ++ ((search.resolve start param).run .empty).2.gathered) ∧
    (∀ sinks param,
      ((search.collect param sinks).run before).1 = ((search.collect param sinks).run .empty).1) ∧
    ∀ order : List Param, (∀ param, param ∈ order) →
      ((search.factsInOrder (sinks library graph) order).run before).1 =
        graph.facts library settings := by
  intro search before
  refine ⟨fun start param => ?_, fun sinks param => value_collect_from sinks before .empty, ?_⟩
  · rw [run_resolve_from start before]
    exact ⟨rfl, rfl⟩
  · intro order horder
    rw [Search.factsInOrder, value_foldlM_lookUp, Facts.foldl_taking_eq _ _ horder]
    rfl

def selfFedSampler : Node :=
  ⟨"1", "KSampler", none, [("model", .link ⟨"1", 0⟩), ("steps", .literal (.num (.int 20)))], [],
    .active⟩

def saveOfSelfFed : Node := ⟨"2", "SaveImage", none, [("images", .link ⟨"1", 0⟩)], [], .active⟩

/-- A sampler that is its own model. -/
def selfFedGraph : Graph := .ofNodes [selfFedSampler, saveOfSelfFed]

/-- A search that goes round in a circle, a step on its own and a value noted by hand. -/
def meddling : List Operation :=
  [.resolve "2" .model, .trace saveOfSelfFed "images" .steps 0, .accumulate "9" (.str "left over")]

theorem factsInOrder_selfFedGraph : (∀ param, param ∈ Param.all.reverse) ∧
    (((Search.ofSettings selfFedGraph .builtin {}).factsInOrder (sinks .builtin selfFedGraph)
      Param.all.reverse).run ((Search.ofSettings selfFedGraph .builtin {}).trailAfter meddling)).1 =
        selfFedGraph.facts .builtin {} := by
  have h : ∀ param, param ∈ Param.all.reverse := by
    intro param
    cases param <;> decide
  exact ⟨h, (search_after_history selfFedGraph .builtin {} meddling).2.2 _ h⟩

end Tracing

end ImageRecipe
