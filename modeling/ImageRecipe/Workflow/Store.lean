import ImageRecipe.Workflow.Graph
import Std.Data.TreeMap

/-!
# Indexed stores

While a graph is built its nodes stand at places, in the order in which they
were added, and an index leads from each id to the place of its node. Edges run
between places. An id is looked up in the index, never among the nodes.
-/
namespace ImageRecipe.Workflow

/-- A value made at the place `source` and used by an input at the place `target`. -/
structure PlacedEdge where
  source : Nat
  slot : UInt32
  target : Nat
  input : String

structure Store where
  nodes : Array Node
  index : Std.TreeMap String Nat
  edges : Array PlacedEdge
  /-- An id leads to the place of the node that has it. -/
  indexed : ∀ id place, index[id]? = some place ↔ nodes[place]?.map Node.id = some id
  /-- Edges run between places that are taken. -/
  placed : ∀ edge ∈ edges, edge.source < nodes.size ∧ edge.target < nodes.size

namespace Store

def empty : Store where
  nodes := #[]
  index := ∅
  edges := #[]
  indexed := by simp
  placed := by simp

/-- The node with the given id. -/
def node? (store : Store) (id : String) : Option Node :=
  store.index[id]?.bind fun place => store.nodes[place]?

theorem lt_of_index {store : Store} {id : String} {place : Nat}
    (h : store.index[id]? = some place) : place < store.nodes.size := by
  obtain ⟨node, hnode, -⟩ := Option.map_eq_some_iff.mp ((store.indexed id place).mp h)
  exact (Array.getElem?_eq_some_iff.mp hnode).1

/-- One more node at the end is what its id leads to, if this was free. -/
theorem indexed_insert {store : Store} {node : Node}
    (hfree : ¬ store.index.contains node.id = true) (id : String) (place : Nat) :
    (store.index.insert node.id store.nodes.size)[id]? = some place ↔
      (store.nodes.push node)[place]?.map Node.id = some id := by
  rw [Std.TreeMap.getElem?_insert, Array.getElem?_push]
  by_cases hid : node.id = id
  · subst hid
    have hnone : ∀ taken : Nat, ¬ store.nodes[taken]?.map Node.id = some node.id := by
      intro taken h
      refine hfree ?_
      rw [Std.TreeMap.contains_eq_isSome_getElem?, (store.indexed _ _).mpr h]
      rfl
    by_cases hplace : place = store.nodes.size
    · simp [hplace]
    · simp [hplace, Ne.symm hplace, hnone place]
  · have hcompare : compare node.id id ≠ .eq := fun h => hid (Std.LawfulEqCmp.eq_of_compare h)
    rw [if_neg hcompare, store.indexed]
    by_cases hplace : place = store.nodes.size
    · simp [hplace, hid]
    · simp [hplace]

/-- Adds a node without edges; none if its id is taken. -/
def add? (store : Store) (node : Node) : Option Store :=
  if hfree : store.index.contains node.id = true then none
  else some {
    nodes := store.nodes.push node
    index := store.index.insert node.id store.nodes.size
    edges := store.edges
    indexed := indexed_insert hfree
    placed := fun edge he => by
      have hplaced := store.placed edge he
      rw [Array.size_push]
      omega }

/-- Adds a node without edges unless its id is taken. -/
def add (store : Store) (node : Node) : Store := (store.add? node).getD store

/-- The edges into the node at a place. -/
def edgesInto (store : Store) (node : Node) (place : Nat) : List PlacedEdge :=
  node.links.filterMap fun link => store.index[link.target.source]?.map fun source =>
    ⟨source, link.target.slot, place, link.input⟩

/-- Gives every linked input whose source is there its edge. -/
def connected (store : Store) : Store where
  nodes := store.nodes
  index := store.index
  edges := (store.nodes.toList.zipIdx.flatMap fun entry =>
    store.edgesInto entry.1 entry.2).toArray
  indexed := store.indexed
  placed := by
    intro edge he
    obtain ⟨⟨node, place⟩, hentry, hinto⟩ := List.mem_flatMap.mp (List.mem_toArray.mp he)
    obtain ⟨link, -, hlink⟩ := List.mem_filterMap.mp hinto
    obtain ⟨source, hsource, rfl⟩ := Option.map_eq_some_iff.mp hlink
    have hplace := List.snd_lt_of_mem_zipIdx hentry
    exact ⟨lt_of_index hsource, by simpa using hplace⟩

/-- The store of a list of nodes, the first of several with one id. -/
def ofNodes (nodes : List Node) : Store := (nodes.foldl add empty).connected

/-- Whether no input in the store uses a value of the node. -/
def isLeaf (store : Store) (id : String) : Bool :=
  match store.index[id]? with
  | some place => !store.edges.any (·.source == place)
  | none => false

/-- An edge with the ids of the nodes at its ends. -/
def edge? (store : Store) (edge : PlacedEdge) : Option Edge := do
  let source ← store.nodes[edge.source]?
  let target ← store.nodes[edge.target]?
  return ⟨source.id, edge.slot, target.id, edge.input⟩

/-- The nodes and edges without their places. -/
def graph (store : Store) : Graph where
  nodes := store.nodes.toList
  edges := store.edges.toList.filterMap store.edge?

end Store

end ImageRecipe.Workflow
