/-!
# Cycles

A depth-first search of a directed graph. Every edge that leads back to a node
on the current path closes a cycle, which is reported from that node round to
itself. Nodes not reached yet are `fresh`; the path is kept with the edges of
each node that are still to be followed, its last node first.
-/

namespace SqlWorkflow.Graph

/-- A path of a search, last node first, with the edges still to be followed. -/
abbrev Path := List (Nat × List Nat)

/-- The work that is left on a path. -/
def Path.work : Path → Nat
  | [] => 0
  | (_, pending) :: below => pending.length + 1 + Path.work below

/-- The nodes of a path, first node first. -/
def Path.nodes (path : Path) : List Nat :=
  (path.map Prod.fst).reverse

/-- The part of a path that an edge to `node` closes to a cycle, from the node
round to itself. -/
def Path.cycleTo? (path : Path) (node : Nat) : Option (List Nat) :=
  match path.nodes.dropWhile (· != node) with
  | [] => none
  | part => some (part ++ [node])

/-- The cycles found by the rest of a search, in the order in which they are
closed. -/
def searchFrom (edges : Nat → List Nat) (fresh : List Nat)
    (path : Path) : List (List Nat) :=
  match path with
  | [] =>
    match fresh with
    | [] => []
    | root :: rest => searchFrom edges rest [(root, edges root)]
  | (_, []) :: below => searchFrom edges fresh below
  | (node, next :: pending) :: below =>
    if next ∈ fresh then
      searchFrom edges (fresh.erase next)
        ((next, edges next) :: (node, pending) :: below)
    else
      match Path.cycleTo? ((node, pending) :: below) next with
      | some cycle => cycle :: searchFrom edges fresh ((node, pending) :: below)
      | none => searchFrom edges fresh ((node, pending) :: below)
termination_by (fresh.length, Path.work path)
decreasing_by
  · exact Prod.Lex.left _ _ (by simp)
  · exact Prod.Lex.right _ (by simp only [Path.work]; omega)
  · rename_i h
    have hpos : 0 < fresh.length := List.length_pos_of_mem h
    exact Prod.Lex.left _ _ (by rw [List.length_erase_of_mem h]; omega)
  · exact Prod.Lex.right _ (by simp only [Path.work, List.length_cons]; omega)
  · exact Prod.Lex.right _ (by simp only [Path.work, List.length_cons]; omega)

/-- The cycles of a graph that is given by the targets of the edges of each
node. -/
def cycles (edges : List (List Nat)) : List (List Nat) :=
  searchFrom (fun node => edges[node]?.getD []) (List.range edges.length) []

end SqlWorkflow.Graph
