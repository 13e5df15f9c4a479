/-!
# Depth-first search with early exit

A search over a graph whose nodes may carry an answer.  A node is looked at
once: a later visit finds nothing.  The children of a node are searched in
order, and only when none of them finds an answer does the node's own answer
count.

Calls are resolved by such searches: through the hierarchy of types, through
tables of external methods, and from a type to its ancestors.
-/

namespace Resumable

/-- What a search sees at a node. -/
structure Search (α β : Type) where
  /-- The nodes to search first, in order. -/
  children : List α
  /-- The answer of the node itself. -/
  own : Option β

/-- Searches the nodes of a list in order and gives the first answer, with the
nodes visited on the way.  The first argument bounds the steps along one path;
the number of edges of the graph, and one more for each node of the list, is
enough. -/
def firstFound {α β : Type} [DecidableEq α] (look : α → Search α β) :
    Nat → List α → List α → Option β × List α
  | 0, _, visited => (none, visited)
  | _ + 1, [], visited => (none, visited)
  | fuel + 1, a :: rest, visited =>
    if a ∈ visited then firstFound look fuel rest visited
    else
      let below := firstFound look fuel (look a).children (a :: visited)
      match below.1.or (look a).own with
      | some b => (some b, below.2)
      | none => firstFound look fuel rest below.2

end Resumable
