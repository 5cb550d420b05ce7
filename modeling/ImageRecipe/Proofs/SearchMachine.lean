import ImageRecipe.Proofs.VisitEquations
import Mathlib.Logic.Relation

/-!
# A search step by step

A search is recursive on the room that is left on its path. The machine here
makes the same search one step at a time and has nothing that decreases: it
keeps the frames of the nodes on the active path, counts them as it goes, and
notes each node whose plan it takes up. Every visit returns, with the result of
the recursive search, and leaves the frames below it and the count of the nodes
on the path as they were.
-/
namespace ImageRecipe.Tracing

open Workflow

/-- What is still to be done at a node once the step that is under way has its answer. -/
inductive Rest where
  /-- The answer is that of the node. -/
  | last
  /-- The answer is noted, and these entries are to come before the last step. -/
  | gather (entries : List Step) (onward : Step)
  /-- The answer follows those that were read, and these parts are to come. -/
  | join (separator : String) (read : List (Option Json)) (parts : List Step)
  | scale (factor : Float)

/-- A node on the active path. -/
structure Frame where
  id : String
  depth : Nat
  rest : Rest

/-- What is done next: a node is visited, a step is taken, or an answer is given. -/
inductive Control where
  | visit (id : String) (slot : Option UInt32) (depth : Nat)
  | take (step : Step)
  | give (value : Option Json)

structure State where
  control : Control
  /-- The nodes on the active path, the innermost first. -/
  stack : List Frame
  trail : Trail
  /-- The number of nodes on the active path, counted as they come and go. -/
  hops : Nat
  /-- The nodes whose plans were taken up, each with its depth. -/
  applied : List (String × Nat)

/-- Goes on with the entries of a plan that gathers. -/
def gatherOn : List Step → Step → Rest × Control
  | [], onward => (.last, .take onward)
  | entry :: entries, onward => (.gather entries onward, .take entry)

/-- Goes on with the parts of a plan that joins. -/
def joinOn (separator : String) (read : List (Option Json)) : List Step → Rest × Control
  | [] => (.last, .give (joined? separator read))
  | part :: parts => (.join separator read parts, .take part)

/-- How a plan is taken up. -/
def Plan.takeUp : Plan → Rest × Control
  | .single s => (.last, .take s)
  | .gather entries onward => gatherOn entries onward
  | .join separator parts => joinOn separator [] parts
  | .scale factor base => (.scale factor, .take base)

/-- The trail with a value noted, if there is one. -/
def Trail.note (trail : Trail) (id : String) : Option Json → Trail
  | some value => trail.gather id value
  | none => trail

/-- The one step that the machine makes; there is none once the last frame is gone. -/
def Search.next (search : Search) (param : Param) : State → Option State
  | ⟨.take (.answer value), stack, trail, hops, applied⟩ =>
    some ⟨.give value, stack, trail, hops, applied⟩
  | ⟨.take (.follow target depth), stack, trail, hops, applied⟩ =>
    some ⟨.visit target.source target.slot depth, stack, trail, hops, applied⟩
  | ⟨.visit id slot depth, stack, trail, hops, applied⟩ =>
    if search.maxDepth < depth ∨ search.maxPath ≤ hops ∨ id ∈ trail.visited then
      some ⟨.give none, stack, trail, hops, applied⟩
    else
      match search.graph.node? id with
      | none => some ⟨.give none, stack, trail.enter id, hops, applied⟩
      | some node =>
        let plan := (planFor search param node slot depth).takeUp
        some ⟨plan.2, ⟨id, depth, plan.1⟩ :: stack, trail.enter id, hops + 1,
          applied ++ [(id, depth)]⟩
  | ⟨.give _, [], _, _, _⟩ => none
  | ⟨.give value, ⟨_, _, .last⟩ :: stack, trail, hops, applied⟩ =>
    some ⟨.give value, stack, trail, hops - 1, applied⟩
  | ⟨.give value, ⟨id, depth, .gather entries onward⟩ :: stack, trail, hops, applied⟩ =>
    let plan := gatherOn entries onward
    some ⟨plan.2, ⟨id, depth, plan.1⟩ :: stack, trail.note id value, hops, applied⟩
  | ⟨.give value, ⟨id, depth, .join separator read parts⟩ :: stack, trail, hops, applied⟩ =>
    let plan := joinOn separator (read ++ [value]) parts
    some ⟨plan.2, ⟨id, depth, plan.1⟩ :: stack, trail, hops, applied⟩
  | ⟨.give value, ⟨id, depth, .scale factor⟩ :: stack, trail, hops, applied⟩ =>
    some ⟨.give (scaled? factor value), ⟨id, depth, .last⟩ :: stack, trail, hops, applied⟩

/-- A run of the machine in which the frames `below` stay at the bottom of the stack. -/
def Search.Runs (search : Search) (param : Param) (below : List Frame) : State → State → Prop :=
  Relation.ReflTransGen fun s t => search.next param s = some t ∧ below <:+ t.stack

/-- The state in which the search for a parameter at a node begins. -/
def State.initial (start : String) (trail : Trail) : State :=
  ⟨.visit start none 0, [], { trail with visited := [] }, 0, []⟩

/-- The search for a parameter at a node comes to its end with this outcome. -/
def Search.Resolves (search : Search) (param : Param) (start : String) (trail : Trail)
    (outcome : Option Json × Trail) : Prop :=
  ∃ last, search.Runs param [] (.initial start trail) last ∧
    search.next param last = none ∧ last.control = .give outcome.1 ∧ last.trail = outcome.2

variable {search : Search} {param : Param} {below stack : List Frame} {hops room : Nat}
  {id : String} {slot : Option UInt32} {depth : Nat} {trail : Trail}
  {outcome : Option Json × Trail}

lemma Search.Runs.single {s t : State} (h : search.next param s = some t)
    (hb : below <:+ t.stack) : search.Runs param below s t := Relation.ReflTransGen.single ⟨h, hb⟩

lemma Search.Runs.trans {s t u : State} (h : search.Runs param below s t)
    (g : search.Runs param below t u) : search.Runs param below s u :=
  Relation.ReflTransGen.trans h g

lemma Search.Runs.mono {lower : List Frame} {s t : State} (hl : lower <:+ below)
    (h : search.Runs param below s t) : search.Runs param lower s t := by
  refine Relation.ReflTransGen.mono ?_ s t h
  rintro s t ⟨hs, ht⟩
  exact ⟨hs, hl.trans ht⟩

/-- From `control` above the frames `stack`, a run leads to an answer in the same place, with the
same count of nodes on the path. -/
def Search.Returns (search : Search) (param : Param) (stack : List Frame) (hops : Nat)
    (control : Control) (trail : Trail) (outcome : Option Json × Trail) : Prop :=
  ∀ applied, ∃ applied', search.Runs param stack ⟨control, stack, trail, hops, applied⟩
    ⟨.give outcome.1, stack, outcome.2, hops, applied'⟩

/-- The node `id`, with a plan that was taken up, comes to its answer, and its frame goes. -/
def Search.Finishes (search : Search) (param : Param) (stack : List Frame) (hops : Nat)
    (id : String) (depth : Nat) (plan : Rest × Control) (trail : Trail)
    (outcome : Option Json × Trail) : Prop :=
  ∀ applied, ∃ applied', search.Runs param stack
    ⟨plan.2, ⟨id, depth, plan.1⟩ :: stack, trail, hops + 1, applied⟩
    ⟨.give outcome.1, stack, outcome.2, hops, applied'⟩

/-- A step returns what the walk's step returns, if every visit does. -/
lemma returns_take (hv : ∀ target depth trail, search.Returns param stack hops
      (.visit target.source (some target.slot) depth) trail
      ((search.visitBehind param room target depth).run trail)) (s : Step) :
    search.Returns param stack hops (.take s) trail
      ((Walk.step (search.visitBehind param room) s).run trail) := by
  intro applied
  cases s with
  | answer value => exact ⟨applied, .single rfl (List.suffix_refl stack)⟩
  | follow target depth =>
    obtain ⟨applied', h⟩ := hv target depth trail applied
    have hs : search.Runs param stack ⟨.take (.follow target depth), stack, trail, hops, applied⟩
        ⟨.visit target.source target.slot depth, stack, trail, hops, applied⟩ :=
      .single rfl (List.suffix_refl stack)
    exact ⟨applied', hs.trans h⟩

/-- The frame goes with the answer of the last step. -/
lemma finishes_last {control : Control}
    (h : search.Returns param (⟨id, depth, .last⟩ :: stack) (hops + 1) control trail outcome) :
    search.Finishes param stack hops id depth (.last, control) trail outcome := by
  intro applied
  obtain ⟨applied', hr⟩ := h applied
  have hpop : search.Runs param stack
      ⟨.give outcome.1, ⟨id, depth, .last⟩ :: stack, outcome.2, hops + 1, applied'⟩
      ⟨.give outcome.1, stack, outcome.2, hops, applied'⟩ := .single rfl (List.suffix_refl stack)
  exact ⟨applied', (hr.mono (List.suffix_cons _ stack)).trans hpop⟩

lemma finishes_give (value : Option Json) :
    search.Finishes param stack hops id depth (.last, .give value) trail (value, trail) :=
  fun applied => ⟨applied, .single rfl (List.suffix_refl stack)⟩

/-- A step whose answer is not the last goes before the rest of the plan. -/
lemma finishes_step {s : Step} {rest : Rest} {plan : Rest × Control} {value : Option Json}
    {between after : Trail}
    (h : search.Returns param (⟨id, depth, rest⟩ :: stack) (hops + 1) (.take s) trail
      (value, between))
    (hn : ∀ applied, search.next param
      ⟨.give value, ⟨id, depth, rest⟩ :: stack, between, hops + 1, applied⟩ =
        some ⟨plan.2, ⟨id, depth, plan.1⟩ :: stack, after, hops + 1, applied⟩)
    (hp : search.Finishes param stack hops id depth plan after outcome) :
    search.Finishes param stack hops id depth (rest, .take s) trail outcome := by
  intro applied
  obtain ⟨applied₁, h₁⟩ := h applied
  obtain ⟨applied₂, h₂⟩ := hp applied₁
  have hb : stack <:+ (⟨id, depth, plan.1⟩ :: stack : List Frame) := List.suffix_cons _ stack
  exact ⟨applied₂, ((h₁.mono (List.suffix_cons _ stack)).trans (.single (hn applied₁) hb)).trans h₂⟩

section Walks

variable (visit : Link → Nat → Walk (Option Json)) (id : String) (trail : Trail)

lemma run_note (entry : Step) : (Walk.note visit id entry).run trail =
    ((), ((Walk.step visit entry).run trail).2.note id ((Walk.step visit entry).run trail).1) := by
  rw [Walk.note, StateT.run_bind]
  rcases (Walk.step visit entry).run trail with ⟨value, between⟩
  cases value <;> rfl

lemma run_gather_cons (entry : Step) (entries : List Step) (onward : Step) :
    (Walk.carryOut visit id (.gather (entry :: entries) onward)).run trail =
      (Walk.carryOut visit id (.gather entries onward)).run
        (((Walk.step visit entry).run trail).2.note id ((Walk.step visit entry).run trail).1) := by
  simp only [Walk.carryOut, List.forM_eq_forM, List.forM_cons, StateT.run_bind, run_note]
  rfl

lemma run_mapM_cons (part : Step) (parts : List Step) :
    ((part :: parts).mapM (Walk.step visit)).run trail =
      (((Walk.step visit part).run trail).1 ::
          ((parts.mapM (Walk.step visit)).run ((Walk.step visit part).run trail).2).1,
        ((parts.mapM (Walk.step visit)).run ((Walk.step visit part).run trail).2).2) := by
  rw [List.mapM_cons]
  rfl

lemma run_scale (factor : Float) (base : Step) :
    (Walk.carryOut visit id (.scale factor base)).run trail =
      (scaled? factor ((Walk.step visit base).run trail).1,
        ((Walk.step visit base).run trail).2) := rfl

end Walks

section Plans

variable (hv : ∀ hops, room + hops = search.maxPath → ∀ stack target depth trail,
  search.Returns param stack hops (.visit target.source (some target.slot) depth) trail
    ((search.visitBehind param room target depth).run trail))
  (hroom : room + (hops + 1) = search.maxPath)

include hv hroom

lemma finishes_single (s : Step) :
    search.Finishes param stack hops id depth (.last, .take s) trail
      ((Walk.step (search.visitBehind param room) s).run trail) :=
  finishes_last (returns_take (hv _ hroom _) s)

/-- Induction on the entries that are to come. -/
lemma finishes_gather (entries : List Step) (onward : Step) :
    search.Finishes param stack hops id depth (gatherOn entries onward) trail
      ((Walk.carryOut (search.visitBehind param room) id (.gather entries onward)).run trail) := by
  induction entries generalizing trail with
  | nil => exact finishes_single hv hroom onward
  | cons entry entries ih =>
    rw [run_gather_cons]
    exact finishes_step (returns_take (hv _ hroom _) entry) (fun _ => rfl) ih

/-- Induction on the parts that are to come, after those that were read. -/
lemma finishes_join (separator : String) (read : List (Option Json)) (parts : List Step) :
    search.Finishes param stack hops id depth (joinOn separator read parts) trail
      (joined? separator
          (read ++ ((parts.mapM (Walk.step (search.visitBehind param room))).run trail).1),
        ((parts.mapM (Walk.step (search.visitBehind param room))).run trail).2) := by
  induction parts generalizing read trail with
  | nil =>
    have hnil : (([] : List Step).mapM (Walk.step (search.visitBehind param room))).run trail =
        ([], trail) := rfl
    rw [hnil, List.append_nil]
    exact finishes_give (joined? separator read)
  | cons part parts ih =>
    have hrest := @ih ((Walk.step (search.visitBehind param room) part).run trail).2
      (read ++ [((Walk.step (search.visitBehind param room) part).run trail).1])
    rw [List.append_assoc, List.singleton_append] at hrest
    rw [run_mapM_cons]
    exact finishes_step (returns_take (hv _ hroom _) part) (fun _ => rfl) hrest

lemma finishes_scale (factor : Float) (base : Step) :
    search.Finishes param stack hops id depth (.scale factor, .take base) trail
      ((Walk.carryOut (search.visitBehind param room) id (.scale factor base)).run trail) := by
  rw [run_scale]
  exact finishes_step (returns_take (hv _ hroom _) base) (fun _ => rfl) (finishes_give _)

theorem finishes_plan (plan : Plan) :
    search.Finishes param stack hops id depth plan.takeUp trail
      ((Walk.carryOut (search.visitBehind param room) id plan).run trail) := by
  cases plan with
  | single s => exact finishes_single hv hroom s
  | gather entries onward => exact finishes_gather hv hroom entries onward
  | join separator parts => exact finishes_join hv hroom separator [] parts
  | scale factor base => exact finishes_scale hv hroom factor base

end Plans

lemma next_refused (h : search.maxDepth < depth ∨ search.maxPath ≤ hops ∨ id ∈ trail.visited)
    (applied : List (String × Nat)) :
    search.next param ⟨.visit id slot depth, stack, trail, hops, applied⟩ =
      some ⟨.give none, stack, trail, hops, applied⟩ := if_pos h

lemma next_entered (h : ¬ search.Refuses id depth trail) (hh : hops < search.maxPath)
    (applied : List (String × Nat)) :
    search.next param ⟨.visit id slot depth, stack, trail, hops, applied⟩ =
      match search.graph.node? id with
      | none => some ⟨.give none, stack, trail.enter id, hops, applied⟩
      | some node =>
        some ⟨(planFor search param node slot depth).takeUp.2,
          ⟨id, depth, (planFor search param node slot depth).takeUp.1⟩ :: stack,
          trail.enter id, hops + 1, applied ++ [(id, depth)]⟩ := by
  have hr : ¬ (search.maxDepth < depth ∨ search.maxPath ≤ hops ∨ id ∈ trail.visited) := by
    rintro (hd | hp | hi)
    · exact h (Or.inl hd)
    · exact Nat.not_le.mpr hh hp
    · exact h (Or.inr hi)
  exact if_neg hr

/-- A visit of the machine returns with what the recursive visit finds. Induction on the room that
the recursive search has left, which is what the machine's count leaves of the longest path. -/
theorem returns_visit (hroom : room + hops = search.maxPath) :
    search.Returns param stack hops (.visit id slot depth) trail
      ((search.visit param room id slot depth).run trail) := by
  induction room generalizing hops stack id slot depth trail with
  | zero =>
    intro applied
    have hh : search.maxPath ≤ hops := by omega
    exact ⟨applied, .single (next_refused (Or.inr (Or.inl hh)) applied) (List.suffix_refl stack)⟩
  | succ room ih =>
    intro applied
    by_cases hr : search.Refuses id depth trail
    · rw [Search.run_visit_refused _ _ hr]
      have h : search.maxDepth < depth ∨ search.maxPath ≤ hops ∨ id ∈ trail.visited := by
        rcases hr with hd | hi
        · exact Or.inl hd
        · exact Or.inr (Or.inr hi)
      exact ⟨applied, .single (next_refused h applied) (List.suffix_refl stack)⟩
    have hh : hops < search.maxPath := by omega
    have hstep : search.next param ⟨.visit id slot depth, stack, trail, hops, applied⟩ = _ :=
      next_entered hr hh applied
    cases hn : search.graph.node? id with
    | none =>
      rw [Search.run_visit_missing _ _ hr hn]
      rw [hn] at hstep
      exact ⟨applied, .single hstep (List.suffix_refl stack)⟩
    | some node =>
      rw [Search.run_visit_found _ _ hr hn]
      rw [hn] at hstep
      have hroom' : room + (hops + 1) = search.maxPath := by omega
      have hplan : search.Finishes param stack hops id depth _ (trail.enter id) _ :=
        finishes_plan (fun _ h _ _ _ _ => ih h) hroom' (planFor search param node slot depth)
      obtain ⟨applied', hrun⟩ := hplan (applied ++ [(id, depth)])
      exact ⟨applied', (Search.Runs.single hstep (List.suffix_cons _ stack)).trans hrun⟩

/-- The machine comes to an end with the outcome of the recursive search. -/
theorem resolves_resolve (search : Search) (param : Param) (start : String) (trail : Trail) :
    search.Resolves param start trail ((search.resolve start param).run trail) := by
  rw [Search.run_resolve]
  have h : search.maxPath + 0 = search.maxPath := Nat.add_zero _
  have hv : search.Returns param [] 0 (.visit start none 0) { trail with visited := [] } _ :=
    returns_visit h
  obtain ⟨applied, hrun⟩ := hv []
  exact ⟨_, hrun, rfl, rfl, rfl⟩

end ImageRecipe.Tracing
