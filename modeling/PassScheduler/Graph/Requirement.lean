import PassScheduler.Graph.Search

/-!
Contract: which passes were built on top of which.

Owns: the graph from each pass to the passes that require it, its construction from edges, and
the passes that depend on one directly or through others.

Does not own: names, kinds or levels of passes; a pass is its number here.
-/

namespace PassScheduler

/-- The number of a pass, which is its place in the order of registration. -/
abbrev PassId := Nat

/-- The passes that require each pass, in ascending order and without repeats. -/
structure RequirementGraph where
  requiredBy : List (List PassId)
deriving DecidableEq, Repr

namespace RequirementGraph

/-- Numbers in ascending order, each once. -/
def ascending (ids : List PassId) : List PassId :=
  ids.eraseDups.mergeSort fun first second => decide (first ≤ second)

/-- The graph over `count` passes with the given edges, each a prerequisite and a dependent.
A dependent need not be below `count`; an edge whose prerequisite is not is left out. -/
def ofEdges (count : Nat) (edges : List (PassId × PassId)) : RequirementGraph where
  requiredBy := (List.range count).map fun prerequisite =>
    ascending ((edges.filter fun edge => edge.1 = prerequisite).map Prod.snd)

/-- The graph of the given edges, if every prerequisite is one of the `count` passes. -/
def ofEdges? (count : Nat) (edges : List (PassId × PassId)) : Option RequirementGraph :=
  if edges.all fun edge => edge.1 < count then some (ofEdges count edges) else none

def size (graph : RequirementGraph) : Nat :=
  graph.requiredBy.length

def edgeCount (graph : RequirementGraph) : Nat :=
  graph.requiredBy.flatten.length

/-- The passes that list a pass as a prerequisite. -/
def dependents (graph : RequirementGraph) (id : PassId) : List PassId :=
  (graph.requiredBy[id]?).getD []

/-- Every pass that requires a pass directly or through others, in ascending order. The pass
itself is among them only if it lies on a cycle. -/
def transitiveDependents (graph : RequirementGraph) (id : PassId) : List PassId :=
  ascending (Search.reachable graph.dependents graph.requiredBy.flatten (graph.dependents id))

end RequirementGraph

end PassScheduler
