import ImageRecipe.Proofs.SearchMachine

/-!
# How far a search goes

Every search comes to an end, whatever the graph and the library. On the way no
node's plan is taken up twice, the active path never holds more nodes than twice
the greatest depth, no plan is taken up deeper than that, and a visit that
returns leaves the count of the nodes on the path as it found it.
-/
namespace ImageRecipe.Tracing

open Workflow

variable {search : Search} {param : Param}

/-- A step of the machine leaves the path alone, or takes up the plan of a new node, or lets go
of the innermost node, or changes only what is still to be done there. -/
inductive Change (search : Search) (s t : State) : Prop
  | still (hstack : t.stack = s.stack) (hhops : t.hops = s.hops) (happlied : t.applied = s.applied)
      (hvisited : s.trail.visited ⊆ t.trail.visited)
  | entered {id : String} {depth : Nat} {rest : Rest} (hdepth : depth ≤ search.maxDepth)
      (hroom : s.hops < search.maxPath) (hfresh : id ∉ s.trail.visited)
      (hstack : t.stack = ⟨id, depth, rest⟩ :: s.stack) (hhops : t.hops = s.hops + 1)
      (happlied : t.applied = s.applied ++ [(id, depth)])
      (hvisited : t.trail.visited = id :: s.trail.visited)
  | left {frame : Frame} (hstack : s.stack = frame :: t.stack) (hhops : t.hops = s.hops - 1)
      (happlied : t.applied = s.applied) (htrail : t.trail = s.trail)
  | resumed {id : String} {depth : Nat} {rest rest' : Rest} {below : List Frame}
      (hs : s.stack = ⟨id, depth, rest⟩ :: below) (ht : t.stack = ⟨id, depth, rest'⟩ :: below)
      (hhops : t.hops = s.hops) (happlied : t.applied = s.applied)
      (hvisited : t.trail.visited = s.trail.visited)

@[simp] lemma visited_note (trail : Trail) (id : String) (value : Option Json) :
    (trail.note id value).visited = trail.visited := by
  cases value <;> rfl

theorem change_of_next {s t : State} (h : search.next param s = some t) : Change search s t := by
  obtain ⟨control, stack, trail, hops, applied⟩ := s
  cases control with
  | take step =>
    cases step <;> cases h <;> exact .still rfl rfl rfl (List.Subset.refl _)
  | visit id slot depth =>
    by_cases hr : search.maxDepth < depth ∨ search.maxPath ≤ hops ∨ id ∈ trail.visited
    · rw [next_refused hr] at h
      cases h
      exact .still rfl rfl rfl (List.Subset.refl _)
    · simp only [not_or, Nat.not_lt, Nat.not_le] at hr
      obtain ⟨hdepth, hroom, hfresh⟩ := hr
      have hn : ¬ search.Refuses id depth trail := not_or.mpr ⟨Nat.not_lt.mpr hdepth, hfresh⟩
      rw [next_entered hn hroom] at h
      split at h
      · cases h
        exact .still rfl rfl rfl (List.subset_cons_self _ _)
      · cases h
        exact .entered hdepth hroom hfresh rfl rfl rfl rfl
  | give value =>
    cases stack with
    | nil => cases h
    | cons frame below =>
      obtain ⟨id, depth, rest⟩ := frame
      cases rest with
      | last =>
        cases h
        exact .left rfl rfl rfl rfl
      | gather entries onward =>
        cases h
        exact .resumed rfl rfl rfl rfl (visited_note trail id value)
      | join separator read parts =>
        cases h
        exact .resumed rfl rfl rfl rfl rfl
      | scale factor =>
        cases h
        exact .resumed rfl rfl rfl rfl rfl

/-- The count of the nodes on the path is right and within its bound; the plans that were taken up
are those of distinct visited nodes, none of them too deep. -/
structure State.Bounded (search : Search) (s : State) : Prop where
  hops_eq : s.hops = s.stack.length
  hops_le : s.hops ≤ search.maxPath
  applied_nodup : (s.applied.map Prod.fst).Nodup
  applied_visited : ∀ a ∈ s.applied, a.1 ∈ s.trail.visited
  applied_depth : ∀ a ∈ s.applied, a.2 ≤ search.maxDepth
  stack_applied : ∀ frame ∈ s.stack, (frame.id, frame.depth) ∈ s.applied

lemma bounded_initial (start : String) (trail : Trail) :
    (State.initial start trail).Bounded search where
  hops_eq := rfl
  hops_le := Nat.zero_le _
  applied_nodup := List.nodup_nil
  applied_visited := by simp [State.initial]
  applied_depth := by simp [State.initial]
  stack_applied := by simp [State.initial]

theorem State.Bounded.next {s t : State} (hs : s.Bounded search)
    (h : search.next param s = some t) : t.Bounded search := by
  obtain ⟨heq, hle, hnodup, hvis, hdep, hact⟩ := hs
  cases change_of_next h with
  | still hstack hhops happlied hvisited =>
    refine ⟨by rw [hhops, hstack, heq], hhops ▸ hle, happlied ▸ hnodup, ?_, happlied ▸ hdep, ?_⟩
    · intro a ha
      exact hvisited (hvis a (happlied ▸ ha))
    · rw [hstack, happlied]
      exact hact
  | @entered id depth rest hdepth hroom hfresh hstack hhops happlied hvisited =>
    have hnew : id ∉ s.applied.map Prod.fst := by
      intro hm
      obtain ⟨entry, hentry, rfl⟩ := List.mem_map.mp hm
      exact hfresh (hvis entry hentry)
    refine ⟨?_, by omega, ?_, ?_, ?_, ?_⟩
    · rw [hhops, hstack, heq, List.length_cons]
    · rw [happlied, List.map_append, List.map_cons, List.map_nil, List.nodup_append]
      refine ⟨hnodup, by simp, ?_⟩
      intro other hother new hn heq
      have hid : new = id := List.mem_singleton.mp hn
      exact hnew (heq.trans hid ▸ hother)
    · intro a ha
      rw [hvisited]
      rw [happlied] at ha
      rcases List.mem_append.mp ha with ha | ha
      · exact List.mem_cons_of_mem _ (hvis a ha)
      · rw [List.mem_singleton.mp ha]
        exact List.mem_cons_self
    · intro a ha
      rw [happlied] at ha
      rcases List.mem_append.mp ha with ha | ha
      · exact hdep a ha
      · rw [List.mem_singleton.mp ha]
        exact hdepth
    · intro frame hf
      rw [hstack] at hf
      rw [happlied]
      rcases List.mem_cons.mp hf with rfl | hf
      · exact List.mem_append_right _ (List.mem_singleton.mpr rfl)
      · exact List.mem_append_left _ (hact frame hf)
  | @left frame hstack hhops happlied htrail =>
    have hlen : s.stack.length = t.stack.length + 1 := by rw [hstack, List.length_cons]
    refine ⟨by omega, by omega, happlied ▸ hnodup, ?_, happlied ▸ hdep, ?_⟩
    · rw [happlied, htrail]
      exact hvis
    · intro frame' hf
      rw [happlied]
      exact hact frame' (hstack ▸ List.mem_cons_of_mem _ hf)
  | @resumed id depth rest rest' below hstack ht hhops happlied hvisited =>
    refine ⟨?_, hhops ▸ hle, happlied ▸ hnodup, ?_, happlied ▸ hdep, ?_⟩
    · rw [hhops, heq, hstack, ht, List.length_cons, List.length_cons]
    · rw [happlied, hvisited]
      exact hvis
    · intro frame hf
      rw [ht] at hf
      rw [happlied]
      rcases List.mem_cons.mp hf with rfl | hf
      · exact hact ⟨id, depth, rest⟩ (hstack ▸ List.mem_cons_self)
      · exact hact frame (hstack ▸ List.mem_cons_of_mem _ hf)

theorem State.Bounded.runs {below : List Frame} {s t : State} (hs : s.Bounded search)
    (h : search.Runs param below s t) : t.Bounded search := by
  induction h with
  | refl => exact hs
  | tail _ hstep ih => exact ih.next hstep.1

lemma Search.Resolves.unique {start : String} {trail : Trail} {a b : Option Json × Trail}
    (ha : search.Resolves param start trail a) (hb : search.Resolves param start trail b) :
    a = b := by
  obtain ⟨s, hs, hsend, hscontrol, hstrail⟩ := ha
  obtain ⟨t, ht, htend, htcontrol, httrail⟩ := hb
  have hright : Relator.RightUnique fun s t : State =>
      search.next param s = some t ∧ ([] : List Frame) <:+ t.stack := by
    rintro u v w ⟨hv, -⟩ ⟨hw, -⟩
    exact Option.some.inj (hv.symm.trans hw)
  have hend : ∀ {u v : State}, search.next param u = none → search.Runs param [] u v → u = v := by
    intro u v hu hr
    rcases Relation.ReflTransGen.cases_head hr with h | ⟨w, ⟨hw, -⟩, -⟩
    · exact h
    · rw [hu] at hw
      cases hw
  have hst : s = t := by
    rcases Relation.ReflTransGen.total_of_right_unique hright hs ht with h | h
    · exact hend hsend h
    · exact (hend htend h).symm
  subst hst
  rw [hscontrol] at htcontrol
  injection htcontrol with hvalue
  exact Prod.ext hvalue (hstrail.symm.trans httrail)

/-- The search for a parameter comes to one end, that of the recursive search. -/
theorem resolves_iff {start : String} {trail : Trail} {outcome : Option Json × Trail} :
    search.Resolves param start trail outcome ↔
      outcome = (search.resolve start param).run trail := by
  constructor
  · exact fun h => h.unique (resolves_resolve search param start trail)
  · rintro rfl
    exact resolves_resolve search param start trail

/-- Searches from one sink after the other come to an end, at the first value that is taken. -/
inductive Search.FirstReturns {α : Type} (search : Search) (param : Param)
    (read : Json → Option α) : List Node → Trail → Option α × Trail → Prop
  | nowhere {trail : Trail} : FirstReturns search param read [] trail (none, trail)
  | here {sink : Node} {rest : List Node} {trail after : Trail} {value : Option Json} {x : α}
      (hs : search.Resolves param sink.id trail (value, after))
      (hr : value.bind read = some x) :
      FirstReturns search param read (sink :: rest) trail (some x, after)
  | onward {sink : Node} {rest : List Node} {trail after : Trail} {value : Option Json}
      {outcome : Option α × Trail} (hs : search.Resolves param sink.id trail (value, after))
      (hr : value.bind read = none) (hf : FirstReturns search param read rest after outcome) :
      FirstReturns search param read (sink :: rest) trail outcome

/-- Searches from one sink after the other come to an end, at the first that gathers anything. -/
inductive Search.CollectReturns (search : Search) (param : Param) :
    List Node → Trail → List (String × Json) × Trail → Prop
  | nowhere {trail : Trail} : CollectReturns search param [] trail ([], trail)
  | here {sink : Node} {rest : List Node} {trail after : Trail} {value : Option Json}
      (hs : search.Resolves param sink.id { trail with gathered := [] } (value, after))
      (hg : after.gathered ≠ []) : CollectReturns search param (sink :: rest) trail
        (after.gathered, { after with gathered := [] })
  | onward {sink : Node} {rest : List Node} {trail after : Trail} {value : Option Json}
      {outcome : List (String × Json) × Trail}
      (hs : search.Resolves param sink.id { trail with gathered := [] } (value, after))
      (hg : after.gathered = []) (hc : CollectReturns search param rest after outcome) :
      CollectReturns search param (sink :: rest) trail outcome

theorem firstReturns_first {α : Type} (read : Json → Option α) (sinks : List Node)
    (trail : Trail) :
    search.FirstReturns param read sinks trail ((search.first param read sinks).run trail) := by
  induction sinks generalizing trail with
  | nil => exact .nowhere
  | cons sink rest ih =>
    have hs := resolves_resolve search param sink.id trail
    rw [Search.run_first_cons]
    cases h : ((search.resolve sink.id param).run trail).1.bind read with
    | some x => exact .here hs h
    | none => exact .onward hs h (ih _)

theorem collectReturns_collect (sinks : List Node) (trail : Trail) :
    search.CollectReturns param sinks trail ((search.collect param sinks).run trail) := by
  induction sinks generalizing trail with
  | nil => exact .nowhere
  | cons sink rest ih =>
    have hs := resolves_resolve search param sink.id { trail with gathered := [] }
    rw [Search.run_collect_cons]
    by_cases h : ((search.resolve sink.id param).run { trail with gathered := [] }).2.gathered = []
    · simp only [h, List.isEmpty_nil, if_true]
      exact .onward hs h (ih _)
    · simp only [List.isEmpty_iff, h, if_false]
      exact .here hs h

/-- A visit returns: from a moment at which a node is about to be visited, a run that leaves the
frames there in place comes to an answer with the same nodes on the path. -/
theorem exists_return_of_visit {s : State} (hs : s.Bounded search) {id : String}
    {slot : Option UInt32} {depth : Nat} (hc : s.control = .visit id slot depth) :
    ∃ value t, search.Runs param s.stack s t ∧ t.control = .give value ∧ t.stack = s.stack ∧
      t.hops = s.hops := by
  obtain ⟨control, stack, trail, hops, applied⟩ := s
  cases hc
  have hle : hops ≤ search.maxPath := hs.hops_le
  have hroom : search.maxPath - hops + hops = search.maxPath := by omega
  have hv : search.Returns param stack hops (.visit id slot depth) trail _ := returns_visit hroom
  obtain ⟨applied', hr⟩ := hv applied
  exact ⟨_, _, hr, rfl, rfl, rfl⟩

/-- Whatever the graph, the library, the settings and the parameter, searches from one node and
from a list of sinks come to an end, with the results of the recursive searches. At every moment
of a search the plans that were taken up are those of distinct nodes, at depths within the
ceiling; the path is made of such nodes and holds at most twice as many as the ceiling; and a
visit that begins there returns with the count of the nodes on the path that it found. -/
theorem search_returns_within_ceilings (graph : Graph) (library : NodeLibrary)
    (settings : Settings) (param : Param) :
    let search := Search.ofSettings graph library settings
    let ceiling := max 1 (min settings.maxDepth 128)
    (∀ start trail outcome, search.Resolves param start trail outcome ↔
      outcome = (search.resolve start param).run trail) ∧
    (∀ (α : Type) (read : Json → Option α) sinks trail,
      search.FirstReturns param read sinks trail ((search.first param read sinks).run trail)) ∧
    (∀ sinks trail,
      search.CollectReturns param sinks trail ((search.collect param sinks).run trail)) ∧
    ∀ start trail s, search.Runs param [] (.initial start trail) s →
      (s.applied.map Prod.fst).Nodup ∧ (∀ a ∈ s.applied, a.2 ≤ ceiling) ∧
      (∀ frame ∈ s.stack, (frame.id, frame.depth) ∈ s.applied) ∧
      s.stack.length ≤ 2 * ceiling ∧ s.hops = s.stack.length ∧
      ∀ id slot depth, s.control = .visit id slot depth →
        (∃ value t, search.Runs param s.stack s t ∧ t.control = .give value ∧
          t.stack = s.stack ∧ t.hops = s.hops) ∧
        ∀ t, search.Runs param [] s t → t.stack = s.stack → t.hops = s.hops := by
  intro search ceiling
  refine ⟨fun start trail outcome => resolves_iff,
    fun α read sinks trail => firstReturns_first read sinks trail,
    fun sinks trail => collectReturns_collect sinks trail, ?_⟩
  intro start trail s hs
  have hb : s.Bounded search := (bounded_initial start trail).runs hs
  have hlen : s.stack.length ≤ 2 * ceiling := hb.hops_eq ▸ hb.hops_le
  refine ⟨hb.applied_nodup, hb.applied_depth, hb.stack_applied, hlen, hb.hops_eq, ?_⟩
  intro id slot depth hc
  refine ⟨exists_return_of_visit hb hc, fun t ht hstack => ?_⟩
  rw [(hb.runs ht).hops_eq, hstack, hb.hops_eq]

end ImageRecipe.Tracing
