import ImageRecipe.Json.Printer
import ImageRecipe.Workflow.Graph

/-!
# Listing a workflow for readers

The nodes, the edges, and for each node the inputs that use its values, the
edge that was added last first.
-/
namespace ImageRecipe.Workflow

def Node.listing (node : Node) : String :=
  "[" ++ node.id ++ "] " ++ node.title.getD "" ++ " (type: " ++ node.classType ++ ", mode: " ++
    node.mode.name ++ ")"

def Edge.listing (edge : Edge) : String :=
  edge.source ++ ":" ++ Text.decimalText edge.slot.toNat ++ " --> " ++ edge.target ++ "." ++
    edge.input

namespace Graph

/-- The line of a node in the last section. -/
def consumersListing (graph : Graph) (node : Node) : String :=
  let consumers := (graph.edges.filter (·.source == node.id)).reverse.map fun edge =>
    edge.target ++ "(" ++ edge.input ++ ")"
  node.id ++ " -> " ++ (if consumers.isEmpty then "(end)" else ", ".intercalate consumers)

def listing (graph : Graph) : String :=
  let counts := "Nodes: " ++ Text.decimalText graph.nodes.length ++ ", Edges: " ++
    Text.decimalText graph.edges.length
  "\n".intercalate (
    ["=== Workflow Graph ===", counts, "", "--- Nodes ---"] ++
    graph.nodes.map Node.listing ++
    ["", "--- Edges ---"] ++
    graph.edges.map Edge.listing ++
    ["", "--- Graph Structure ---"] ++
    graph.nodes.map graph.consumersListing)

end Graph

end ImageRecipe.Workflow
