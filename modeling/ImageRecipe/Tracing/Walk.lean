import ImageRecipe.Tracing.Plan

/-!
# Walking a workflow

A walk carries out the plans of the nodes it comes to. Its trail holds the
nodes that were visited, each of which is asked once, and the values that were
gathered on the way. `visit` is recursive on the room that is left on the path,
so that a walk ends whatever the links are; a fresh search has room for twice
its greatest depth.
-/
namespace ImageRecipe.Tracing

open Workflow

structure Trail where
  visited : List String
  /-- Gathered values with the node that each of them was found at. -/
  gathered : List (String × Json)
  deriving Repr

namespace Trail

def empty : Trail := ⟨[], []⟩

def enter (trail : Trail) (id : String) : Trail := { trail with visited := id :: trail.visited }

def gather (trail : Trail) (id : String) (value : Json) : Trail :=
  { trail with gathered := trail.gathered ++ [(id, value)] }

end Trail

/-- A part of a search, which may change the trail. -/
abbrev Walk (α : Type) := StateM Trail α

/-- The text of a part that is to be joined. -/
def partText? (value : Option Json) : Option String :=
  match value with
  | some (.str s) => Text.nonBlank? s
  | some (.num n) => some n.text
  | _ => none

/-- The texts that differ from all before them. -/
def distinctTexts (texts : List String) : List String :=
  texts.foldl (fun kept text => if kept.contains text then kept else kept ++ [text]) []

/-- The distinct texts of the parts with the separator between them, if there are any. -/
def joined? (separator : String) (parts : List (Option Json)) : Option Json :=
  match distinctTexts (parts.filterMap partText?) with
  | [] => none
  | texts => some (.str (separator.intercalate texts))

/-- A number times a factor as a whole number. -/
def scaled? (factor : Float) (base : Option Json) : Option Json :=
  (base.bind Json.float?).map fun x => .ofNatural (Decimal.rounded64 (x * factor))

namespace Walk

/-- Takes one step; `visit` says what comes of a link. -/
def step (visit : Link → Nat → Walk (Option Json)) : Step → Walk (Option Json)
  | .answer value => pure value
  | .follow target depth => visit target depth

/-- Takes a step and notes what it gives under the node's id. -/
def note (visit : Link → Nat → Walk (Option Json)) (id : String) (entry : Step) :
    Walk Unit := do
  match ← step visit entry with
  | some value => modify (·.gather id value)
  | none => pure ()

/-- Carries out the plan of the node `id`. -/
def carryOut (visit : Link → Nat → Walk (Option Json)) (id : String) :
    Plan → Walk (Option Json)
  | .single s => step visit s
  | .gather entries onward => do
    entries.forM (note visit id)
    step visit onward
  | .join separator parts => return joined? separator (← parts.mapM (step visit))
  | .scale factor base => return scaled? factor (← step visit base)

end Walk

namespace Search

/-- What a parameter is at the node `id`, reached through `slot` at `depth`; `room` bounds the
nodes on the path from here on. -/
def visit (search : Search) (param : Param) :
    Nat → String → Option UInt32 → Nat → Walk (Option Json)
  | 0, _, _, _ => pure none
  | room + 1, id, slot, depth => do
    if depth > search.maxDepth || (← get).visited.contains id then return none
    modify (·.enter id)
    match search.graph.node? id with
    | none => return none
    | some node =>
      Walk.carryOut (fun target depth => visit search param room target.source target.slot depth)
        id (planFor search param node slot depth)

/-- Follows a link with all the room that a search has. -/
def follow (search : Search) (param : Param) (target : Link) (depth : Nat) :
    Walk (Option Json) :=
  search.visit param search.maxPath target.source target.slot depth

/-- The parameter at a node, with no node visited before. -/
def resolve (search : Search) (start : String) (param : Param) : Walk (Option Json) := do
  modify fun trail => { trail with visited := [] }
  search.visit param search.maxPath start none 0

/-- The parameter behind an input of a node. -/
def trace (search : Search) (node : Node) (input : String) (param : Param) (depth : Nat) :
    Walk (Option Json) :=
  Walk.step (search.follow param) (.toInput node input depth)

/-- The parameter in a widget of a node, which may have been made into a linked input. -/
def widget (search : Search) (node : Node) (name : String) (param : Param) (depth : Nat) :
    Walk (Option Json) :=
  Walk.step (search.follow param) (.toWidget search.library node name depth)

/-- Notes a value under a node's id. -/
def accumulate (id : String) (value : Json) : Walk Unit := modify (·.gather id value)

/-- The gathered values, which are no longer kept. -/
def takeGathered : Walk (List (String × Json)) := do
  let gathered := (← get).gathered
  modify fun trail => { trail with gathered := [] }
  return gathered

/-- Resolves the parameter from each sink in turn, up to the first value that `read` takes. -/
def first {α : Type} (search : Search) (param : Param) (read : Json → Option α) :
    List Node → Walk (Option α)
  | [] => pure none
  | sink :: rest => do
    match (← search.resolve sink.id param).bind read with
    | some value => pure (some value)
    | none => first search param read rest

/-- The values that are gathered for the parameter from the first sink that gives any. -/
def collect (search : Search) (param : Param) : List Node → Walk (List (String × Json))
  | [] => pure []
  | sink :: rest => do
    modify fun trail => { trail with gathered := [] }
    let _ ← search.resolve sink.id param
    if (← get).gathered.isEmpty then collect search param rest
    else takeGathered

end Search

end ImageRecipe.Tracing
