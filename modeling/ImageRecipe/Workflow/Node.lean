import ImageRecipe.Json.Basic

/-!
# Nodes of a workflow

A node has a type tag, inputs in the order in which they were written, and
values of its widgets by position. An input is a literal or a link to an output
slot of another node.
-/
namespace ImageRecipe.Workflow

/-- Whether a node runs. -/
inductive Mode where
  | active
  | muted
  | bypassed
  deriving DecidableEq, Repr

namespace Mode

/-- Code 2 is muted, code 4 bypassed, any other or none active. -/
def ofCode : Option Int → Mode
  | some 2 => .muted
  | some 4 => .bypassed
  | _ => .active

def isSkipped (mode : Mode) : Bool := mode != .active

def name : Mode → String
  | .active => "active"
  | .muted => "muted"
  | .bypassed => "bypassed"

def ofName? (name : String) : Option Mode :=
  [active, muted, bypassed].find? (·.name == name)

end Mode

/-- An output slot of a node. -/
structure Link where
  source : String
  slot : UInt32
  deriving DecidableEq, Repr

inductive Input where
  | literal (value : Json)
  | link (target : Link)
  deriving Repr

namespace Input

/-- An array of a node id and a slot is a link; the slot keeps its low 32 bits. Anything else is
a literal. -/
def ofJson : Json → Input
  | .arr [.str source, .num slot] =>
    match slot.natural? with
    | some n => .link ⟨source, n.toUInt32⟩
    | none => .literal (.arr [.str source, .num slot])
  | value => .literal value

def link? : Input → Option Link
  | .link target => some target
  | .literal _ => none

/-- A literal other than null. -/
def literal? : Input → Option Json
  | .literal .null => none
  | .literal value => some value
  | .link _ => none

end Input

structure Node where
  id : String
  /-- The type tag; empty if it could not be read. -/
  classType : String
  title : Option String
  inputs : List (String × Input)
  widgets : List Json
  mode : Mode
  deriving Repr

/-- A linked input of a node. -/
structure NamedLink where
  input : String
  target : Link
  deriving DecidableEq, Repr

namespace Node

/-- The first input with the given name. -/
def input? (node : Node) (name : String) : Option Input :=
  (node.inputs.find? (·.1 == name)).map (·.2)

/-- The literal of an input, unless it is null. -/
def literal? (node : Node) (name : String) : Option Json :=
  (node.input? name).bind Input.literal?

/-- The link of an input. -/
def link? (node : Node) (name : String) : Option Link :=
  (node.input? name).bind Input.link?

/-- The linked inputs in order. -/
def links (node : Node) : List NamedLink :=
  node.inputs.filterMap fun input => input.2.link?.map fun target => ⟨input.1, target⟩

def firstLink? (node : Node) : Option NamedLink := node.links.head?

end Node

end ImageRecipe.Workflow
