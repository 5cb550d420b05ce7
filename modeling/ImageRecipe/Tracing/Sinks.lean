import ImageRecipe.NodeLibrary.Definition
import ImageRecipe.Workflow.Graph

/-!
# Where searches begin

A search begins at the nodes that put images out. Nodes that save come before
nodes that only show, nodes that run before those that do not, and otherwise
the order of the graph is kept. In a graph without such nodes the leaves with a
linked input take their place.
-/
namespace ImageRecipe.Tracing

open Workflow

/-- A node that runs comes before one that does not. -/
def modeRank (node : Node) : Nat := if node.mode.isSkipped then 1 else 0

/-- The rank of a node that puts images out. -/
def sinkRank? (library : NodeLibrary) (node : Node) : Option Nat :=
  match library.get? node.classType with
  | some d =>
    if d.hasRole .sink then some ((if d.category = .preview then 2 else 0) + modeRank node)
    else none
  | none => none

/-- Nodes with their ranks, in the order of the graph. -/
def rankedSinks (library : NodeLibrary) (graph : Graph) : List (Nat × Node) :=
  graph.nodes.filterMap fun node => (sinkRank? library node).map fun rank => (rank, node)

/-- The leaves with a linked input. -/
def rankedLeaves (graph : Graph) : List (Nat × Node) :=
  (graph.nodes.filter fun node => node.firstLink?.isSome && graph.isLeaf node.id).map
    fun node => (modeRank node, node)

/-- The nodes by rank; nodes of one rank keep their order. -/
def byRank (ranked : List (Nat × Node)) : List Node :=
  (ranked.mergeSort fun a b => a.1 ≤ b.1).map (·.2)

def sinks (library : NodeLibrary) (graph : Graph) : List Node :=
  let ranked := rankedSinks library graph
  byRank (if ranked.isEmpty then rankedLeaves graph else ranked)

end ImageRecipe.Tracing
