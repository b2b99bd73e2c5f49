/-!
# Reference graphs

Directed graphs on the numbers below a size, as a list of edges in the order in which they were
found. The order of a graph puts every node before its successors when there is no cycle: it is
the reverse of the order in which a depth-first search leaves the nodes.
-/
namespace SchemaCatalog

structure Graph where
  size : Nat
  edges : List (Nat × Nat)
deriving DecidableEq

namespace Graph

/-- The targets of the edges from a node, first edge first. -/
def successors (graph : Graph) (node : Nat) : List Nat :=
  (graph.edges.filter (·.1 == node)).map (·.2)

/-- How far a depth-first search has come: the nodes entered, and the nodes left, last first. -/
structure Search where
  entered : List Nat
  left : List Nat
deriving DecidableEq

/-- Search on from a node, at most `depth` nodes deep. A search that has entered all but `depth`
nodes goes no deeper. -/
def visit (graph : Graph) : Nat → Search → Nat → Search
  | 0, search, _ => search
  | depth + 1, search, node =>
    if search.entered.contains node then search
    else
      let inner := (graph.successors node).foldl (visit graph depth)
        { search with entered := node :: search.entered }
      { inner with left := node :: inner.left }

/-- The nodes, each before its successors unless there is a cycle. -/
def order (graph : Graph) : List Nat :=
  ((List.range graph.size).foldl (graph.visit graph.size) ⟨[], []⟩).left

/-- The nodes that can be reached from a node, itself among them. -/
def reachable (graph : Graph) (node : Nat) : List Nat :=
  (graph.visit graph.size ⟨[], []⟩ node).entered

/-- The graph with every edge turned round. -/
def reversed (graph : Graph) : Graph :=
  ⟨graph.size, graph.edges.map Prod.swap⟩

/-- The nodes that reach a node and are reached from it. -/
def component (graph : Graph) (node : Nat) : List Nat :=
  let after := graph.reachable node
  let before := graph.reversed.reachable node
  (List.range graph.size).filter fun other => after.contains other && before.contains other

/-- Every edge leads from its source to a later place in the list. -/
def leadsForward (graph : Graph) (nodes : List Nat) : Bool :=
  graph.edges.all fun edge => nodes.idxOf edge.1 < nodes.idxOf edge.2

/-- The first component of several nodes in the order of the graph, if there is a cycle. There is
none when every edge leads forward. -/
def cycle? (graph : Graph) : Option (List Nat) :=
  if graph.leadsForward graph.order then none
  else
    graph.order.findSome? fun node =>
      let component := graph.component node
      if 2 ≤ component.length then some component else none

end Graph

end SchemaCatalog
