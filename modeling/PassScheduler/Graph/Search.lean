/-!
Contract: depth-first search over a graph that is given by its successor function.

A search works off a plan of visits. Entering a node that is still fresh puts the visits of its
successors, and then the leaving of the node itself, in front of what was planned before; each
node is entered at most once, so the plan runs out.

Owns:
- `postOrder`, the nodes in the order in which they are left;
- `closedWalk?`, the first way on which a node leads back to itself.

Does not own: which nodes a graph has. A search enters only nodes that it is given as fresh.
-/

namespace PassScheduler.Search

inductive Visit (α : Type) where
  | enter (node : α)
  | leave (node : α)
deriving DecidableEq, Repr

variable {α : Type} [DecidableEq α]

/-- The nodes of a list other than one. -/
def without (node : α) (fresh : List α) : List α :=
  fresh.filter (· ≠ node)

theorem length_without_lt {node : α} {fresh : List α} (member : node ∈ fresh) :
    (without node fresh).length < fresh.length := by
  rw [without, List.length_filter_lt_length_iff_exists]
  exact ⟨node, member, by simp⟩

/-- What a plan becomes when a fresh node in front of it is entered. -/
def expand (next : α → List α) (node : α) (plan : List (Visit α)) : List (Visit α) :=
  (next node).map .enter ++ .leave node :: plan

/-- The nodes that a plan leaves, in order. -/
def postOrder (next : α → List α) : (fresh : List α) → (plan : List (Visit α)) → List α
  | _, [] => []
  | fresh, .leave node :: plan => node :: postOrder next fresh plan
  | fresh, .enter node :: plan =>
      if node ∈ fresh then
        postOrder next (without node fresh) (expand next node plan)
      else
        postOrder next fresh plan
termination_by fresh plan => (fresh.length, plan.length)
decreasing_by
  · exact .right _ (by simp)
  · rename_i member
    exact .left _ _ (length_without_lt member)
  · exact .right _ (by simp)

/-- All nodes of `fresh` that can be reached from the given ones along fresh nodes, each once,
and each after the nodes that were first reached from it. -/
def reachable (next : α → List α) (fresh : List α) (starts : List α) : List α :=
  postOrder next fresh (starts.map .enter)

/-- The first closed walk that a plan runs into: its first and its last node are the same. The
nodes that were entered and not yet left form `path`, the latest first. -/
def closedWalk? (next : α → List α) :
    (fresh path : List α) → (plan : List (Visit α)) → Option (List α)
  | _, _, [] => none
  | fresh, path, .leave _ :: plan => closedWalk? next fresh (path.drop 1) plan
  | fresh, path, .enter node :: plan =>
      if node ∈ path then
        some (path.reverse.dropWhile (· ≠ node) ++ [node])
      else if node ∈ fresh then
        closedWalk? next (without node fresh) (node :: path) (expand next node plan)
      else
        closedWalk? next fresh path plan
termination_by fresh _ plan => (fresh.length, plan.length)
decreasing_by
  · exact .right _ (by simp)
  · rename_i member
    exact .left _ _ (length_without_lt member)
  · exact .right _ (by simp)

end PassScheduler.Search
