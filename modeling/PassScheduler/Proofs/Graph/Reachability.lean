import Mathlib.Logic.Relation
import PassScheduler.Graph.Requirement

/-!
Contract: a search finds exactly what can be reached.

Owns:
- ways along fresh nodes, and what becomes of them when a node stops being fresh;
- membership in a post order, in the nodes that a search reaches, and in the transitive
  dependents of a pass.

Does not own: the order in which nodes are left, or closed walks.
-/

open Relation (ReflTransGen TransGen)

namespace PassScheduler

namespace Search

variable {α : Type} {next : α → List α} {fresh : List α}

/-- An edge of the graph whose end is fresh. -/
def Edge (next : α → List α) (fresh : List α) (source target : α) : Prop :=
  target ∈ next source ∧ target ∈ fresh

/-- A way from a fresh node to a node along fresh nodes. -/
def Leads (next : α → List α) (fresh : List α) (start node : α) : Prop :=
  start ∈ fresh ∧ ReflTransGen (Edge next fresh) start node

private theorem Leads.extend {start node last : α} (leads : Leads next fresh start node)
    (edge : Edge next fresh node last) :
    Leads next fresh start last :=
  ⟨leads.1, leads.2.tail edge⟩

private theorem leave_mem_expand {node entered : α} {plan : List (Visit α)} :
    .leave node ∈ expand next entered plan ↔ node = entered ∨ .leave node ∈ plan := by
  simp [expand]

private theorem enter_mem_expand {node entered : α} {plan : List (Visit α)} :
    .enter node ∈ expand next entered plan ↔ node ∈ next entered ∨ .enter node ∈ plan := by
  simp [expand]

variable [DecidableEq α]

theorem mem_without {node other : α} :
    other ∈ without node fresh ↔ other ∈ fresh ∧ other ≠ node := by
  simp [without]

private theorem Leads.of_without {removed start node : α}
    (leads : Leads next (without removed fresh) start node) :
    Leads next fresh start node := by
  have edges : ∀ source target, Edge next (without removed fresh) source target →
      Edge next fresh source target :=
    fun _ _ edge => ⟨edge.1, (mem_without.1 edge.2).1⟩
  exact ⟨(mem_without.1 leads.1).1, leads.2.lift id edges⟩

/-- A way survives that a node stops being fresh, or it ends there, or what follows the last
visit to that node is a way from one of its successors. -/
private theorem Leads.without {start node : α} (leads : Leads next fresh start node)
    (removed : α) :
    Leads next (without removed fresh) start node ∨ node = removed ∨
      ∃ first ∈ next removed, Leads next (Search.without removed fresh) first node := by
  obtain ⟨startFresh, way⟩ := leads
  induction way with
  | refl =>
      by_cases same : start = removed
      · exact .inr (.inl same)
      · exact .inl ⟨mem_without.2 ⟨startFresh, same⟩, .refl⟩
  | @tail middle last _ edge inductionHypothesis =>
      by_cases same : last = removed
      · exact .inr (.inl same)
      · have lastFresh : last ∈ Search.without removed fresh := mem_without.2 ⟨edge.2, same⟩
        rcases inductionHypothesis with direct | atRemoved | ⟨first, isNext, later⟩
        · exact .inl (direct.extend ⟨edge.1, lastFresh⟩)
        · subst atRemoved
          exact .inr (.inr ⟨last, edge.1, lastFresh, .refl⟩)
        · exact .inr (.inr ⟨first, isNext, later.extend ⟨edge.1, lastFresh⟩⟩)

/-- A plan leaves the nodes that it says it leaves and those to which a fresh way leads from a
node that it enters. -/
theorem mem_postOrder (next : α → List α) (fresh : List α) (plan : List (Visit α)) (node : α) :
    node ∈ postOrder next fresh plan ↔
      .leave node ∈ plan ∨ ∃ start, .enter start ∈ plan ∧ Leads next fresh start node := by
  induction fresh, plan using postOrder.induct next with
  | case1 fresh => simp [postOrder]
  | case2 fresh left plan inductionHypothesis =>
      rw [postOrder, List.mem_cons, inductionHypothesis]
      simp [or_assoc]
  | case3 fresh entered plan isFresh inductionHypothesis =>
      rw [postOrder, if_pos isFresh, inductionHypothesis]
      simp only [leave_mem_expand, enter_mem_expand, List.mem_cons, reduceCtorEq, false_or,
        Visit.enter.injEq]
      constructor
      · rintro ((rfl | leaves) | ⟨start, isNext | planned, leads⟩)
        · exact .inr ⟨node, .inl rfl, isFresh, .refl⟩
        · exact .inl leaves
        · have startEdge : Edge next fresh entered start :=
            ⟨isNext, (mem_without.1 leads.1).1⟩
          exact .inr ⟨entered, .inl rfl, isFresh, .head startEdge leads.of_without.2⟩
        · exact .inr ⟨start, .inr planned, leads.of_without⟩
      · rintro (leaves | ⟨start, planned, leads⟩)
        · exact .inl (.inr leaves)
        · rcases leads.without entered with direct | atEntered | ⟨first, isNext, later⟩
          · rcases planned with rfl | planned
            · exact absurd rfl (mem_without.1 direct.1).2
            · exact .inr ⟨start, .inr planned, direct⟩
          · exact .inl (.inl atEntered)
          · exact .inr ⟨first, .inl isNext, later⟩
  | case4 fresh entered plan notFresh inductionHypothesis =>
      rw [postOrder, if_neg notFresh, inductionHypothesis]
      simp only [List.mem_cons, reduceCtorEq, false_or, Visit.enter.injEq]
      constructor
      · rintro (leaves | ⟨start, planned, leads⟩)
        · exact .inl leaves
        · exact .inr ⟨start, .inr planned, leads⟩
      · rintro (leaves | ⟨start, rfl | planned, leads⟩)
        · exact .inl leaves
        · exact absurd leads.1 notFresh
        · exact .inr ⟨start, planned, leads⟩

/-- Where every edge ends at a fresh node, a search finds what the edges reach from its fresh
starts. -/
theorem mem_reachable (next : α → List α) (fresh starts : List α) (node : α)
    (closed : ∀ source, ∀ target ∈ next source, target ∈ fresh) :
    node ∈ reachable next fresh starts ↔
      ∃ start ∈ starts, start ∈ fresh ∧
        ReflTransGen (fun source target => target ∈ next source) start node := by
  have edges : Edge next fresh = fun source target => target ∈ next source := by
    funext source target
    exact propext ⟨And.left, fun edge => ⟨edge, closed source target edge⟩⟩
  rw [reachable, mem_postOrder]
  simp [Leads, edges]

end Search

namespace RequirementGraph

theorem mem_ascending {id : PassId} {ids : List PassId} : id ∈ ascending ids ↔ id ∈ ids := by
  simp [ascending]

private theorem dependents_subset_flatten (graph : RequirementGraph) (id : PassId) :
    ∀ dependent ∈ graph.dependents id, dependent ∈ graph.requiredBy.flatten := by
  intro dependent member
  unfold dependents at member
  cases found : graph.requiredBy[id]? with
  | none => simp [found] at member
  | some row =>
      rw [found, Option.getD_some] at member
      exact List.mem_flatten.2 ⟨row, List.mem_of_getElem? found, member⟩

/-- The transitive dependents of a pass are what one or more edges reach from it. -/
theorem mem_transitiveDependents (graph : RequirementGraph) (id dependent : PassId) :
    dependent ∈ graph.transitiveDependents id ↔
      TransGen (fun source target => target ∈ graph.dependents source) id dependent := by
  rw [transitiveDependents, mem_ascending,
    Search.mem_reachable _ _ _ _ fun source => graph.dependents_subset_flatten source]
  constructor
  · rintro ⟨first, isDependent, _, way⟩
    exact .head' isDependent way
  · intro way
    obtain ⟨first, isDependent, rest⟩ := TransGen.head'_iff.1 way
    exact ⟨first, isDependent, graph.dependents_subset_flatten id first isDependent, rest⟩

/-- Edges lead from a prerequisite below the count to its dependents. -/
theorem mem_dependents_ofEdges {count : Nat} {edges : List (PassId × PassId)}
    {prerequisite dependent : PassId} :
    dependent ∈ (ofEdges count edges).dependents prerequisite ↔
      prerequisite < count ∧ (prerequisite, dependent) ∈ edges := by
  by_cases inside : prerequisite < count
  · simp [dependents, ofEdges, inside, mem_ascending]
  · simp [dependents, ofEdges, inside]

end RequirementGraph

end PassScheduler
