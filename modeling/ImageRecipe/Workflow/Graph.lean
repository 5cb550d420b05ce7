import ImageRecipe.Workflow.Node

/-!
# Workflow graphs

The nodes of a workflow with distinct ids, in the order in which they were
added, and an edge for every linked input whose source is there. Edges run from
the node that makes a value to the node that uses it, so a leaf is a node
without outgoing edges.
-/
namespace ImageRecipe.Workflow

/-- A value made by `source` and used by an input of `target`. -/
structure Edge where
  source : String
  slot : UInt32
  target : String
  input : String
  deriving DecidableEq, Repr

structure Graph where
  nodes : List Node
  edges : List Edge
  deriving Repr

namespace Graph

def empty : Graph := ⟨[], []⟩

/-- The node with the given id. -/
def node? (graph : Graph) (id : String) : Option Node := graph.nodes.find? (·.id == id)

def hasNode (graph : Graph) (id : String) : Bool := (graph.node? id).isSome

/-- Adds a node without edges; none if its id is taken. -/
def add? (graph : Graph) (node : Node) : Option Graph :=
  if graph.hasNode node.id then none else some { graph with nodes := graph.nodes ++ [node] }

/-- Adds a node without edges unless its id is taken. -/
def add (graph : Graph) (node : Node) : Graph := (graph.add? node).getD graph

/-- The edges into a node. -/
def edgesInto (graph : Graph) (node : Node) : List Edge :=
  (node.links.filter fun link => graph.hasNode link.target.source).map fun link =>
    ⟨link.target.source, link.target.slot, node.id, link.input⟩

/-- Gives every linked input whose source is there its edge. -/
def connected (graph : Graph) : Graph :=
  { graph with edges := graph.nodes.flatMap graph.edgesInto }

/-- The graph of a list of nodes, the first of several with one id. -/
def ofNodes (nodes : List Node) : Graph := (nodes.foldl add empty).connected

/-- Whether no input in the graph uses a value of the node. -/
def isLeaf (graph : Graph) (id : String) : Bool :=
  graph.hasNode id && !graph.edges.any (·.source == id)

end Graph

end ImageRecipe.Workflow
