import Mathlib.Algebra.BigOperators.Group.Finset.Basic
import Mathlib.Algebra.Order.BigOperators.Group.Finset
import Mathlib.Data.Finset.Sort
import Mathlib.Data.List.Permutation
import PassScheduler.Proofs.Graph.Reachability

/-!
Contract: the graph of some edges, and a stack that finds what depends on a pass.

Edges may be given more than once, may form circles, and may lead to passes that are not in the
table of the graph; such passes have no dependents.

Owns:
- the rows of a graph in ascending order, and how many edges they hold;
- the stack: a pass that is taken off for the first time puts its dependents on it. No pass does so
  twice, so the stack runs empty;
- that what was taken off are the transitive dependents, which is what one or more edges reach.

Does not own: which edges are drawn for a registry.
-/

open Relation (TransGen)

namespace PassScheduler.RequirementGraph

/-! ## Rows in ascending order -/

private theorem nodup_eraseDups (ids : List PassId) : ids.eraseDups.Nodup := by
  match ids with
  | [] => simp
  | id :: rest =>
      have others := nodup_eraseDups (rest.filter fun other => !other == id)
      rw [List.eraseDups_cons]
      exact List.nodup_cons.2 ⟨by simp, others⟩
termination_by ids.length
decreasing_by exact Nat.lt_succ_of_le (List.length_filter_le _ _)

theorem pairwise_ascending (ids : List PassId) : (ascending ids).Pairwise (· < ·) := by
  have inOrder : (ascending ids).Pairwise fun first second => decide (first ≤ second) = true :=
    List.pairwise_mergeSort (fun first second third => by simpa using Nat.le_trans)
      (fun first second => by simpa using Nat.le_total _ _) _
  have once : (ascending ids).Nodup := (List.mergeSort_perm _ _).nodup_iff.2 (nodup_eraseDups ids)
  refine (inOrder.and once).imp ?_
  rintro first second ⟨atMost, distinct⟩
  exact Nat.lt_of_le_of_ne (of_decide_eq_true atMost) distinct

theorem length_ascending (ids : List PassId) : (ascending ids).length = ids.toFinset.card := by
  have once : (ascending ids).Nodup := (pairwise_ascending ids).imp Nat.ne_of_lt
  have sameSet : (ascending ids).toFinset = ids.toFinset := by
    ext id
    simp [mem_ascending]
  rw [← List.toFinset_card_of_nodup once, sameSet]

/-- A graph has as many edges as were given, those given again not counted. -/
theorem edgeCount_ofEdges {count : Nat} {edges : List (PassId × PassId)}
    (inside : ∀ edge ∈ edges, edge.1 < count) :
    (ofEdges count edges).edgeCount = edges.toFinset.card := by
  have row : ∀ prerequisite : PassId,
      (ascending ((edges.filter fun edge => edge.1 = prerequisite).map Prod.snd)).length =
        (edges.toFinset.filter fun edge => edge.1 = prerequisite).card := by
    intro prerequisite
    have sameEnds : ((edges.filter fun edge => edge.1 = prerequisite).map Prod.snd).toFinset =
        (edges.toFinset.filter fun edge => edge.1 = prerequisite).image Prod.snd := by
      ext dependent
      simp
    rw [length_ascending, sameEnds, Finset.card_image_of_injOn]
    rintro ⟨_, first⟩ isFirst ⟨_, second⟩ isSecond rfl
    simp only [Finset.coe_filter, Set.mem_ofPred_eq] at isFirst isSecond
    rw [isFirst.2, isSecond.2]
  have starts : Set.MapsTo Prod.fst (edges.toFinset : Set (PassId × PassId))
      (Finset.range count : Set PassId) :=
    fun edge isEdge => Finset.mem_coe.2 (Finset.mem_range.2 (inside edge (by simpa using isEdge)))
  calc (ofEdges count edges).edgeCount
      = ((List.range count).map fun prerequisite =>
          (edges.toFinset.filter fun edge => edge.1 = prerequisite).card).sum := by
        simp [edgeCount, ofEdges, List.length_flatten, Function.comp_def, row]
    _ = ∑ prerequisite ∈ Finset.range count,
          (edges.toFinset.filter fun edge => edge.1 = prerequisite).card :=
        rfl
    _ = edges.toFinset.card := (Finset.card_eq_sum_card_fiberwise starts).symm

/-! ## A stack of passes -/

theorem dependents_of_le {graph : RequirementGraph} {id : PassId} (outside : graph.size ≤ id) :
    graph.dependents id = [] := by
  rw [dependents, List.getElem?_eq_none outside, Option.getD_none]

/-- How many passes may still be put on the stack: those that depend on a pass that was not seen. -/
def outstanding (graph : RequirementGraph) (seen : Finset PassId) : Nat :=
  ∑ id ∈ Finset.range graph.size \ seen, (graph.dependents id).length

/-- What a pass puts on the stack when it is seen first is not outstanding any more. -/
private theorem outstanding_insert (graph : RequirementGraph) {seen : Finset PassId} {id : PassId}
    (new : id ∉ seen) :
    (graph.dependents id).length + graph.outstanding (insert id seen) =
      graph.outstanding seen := by
  rw [outstanding, outstanding, Finset.sdiff_insert]
  by_cases inside : id < graph.size
  · have isLeft : id ∈ Finset.range graph.size \ seen :=
      Finset.mem_sdiff.2 ⟨Finset.mem_range.2 inside, new⟩
    exact Finset.add_sum_erase _ (fun id => (graph.dependents id).length) isLeft
  · have notLeft : id ∉ Finset.range graph.size \ seen := by simp [inside]
    rw [Finset.erase_eq_of_notMem notLeft, dependents_of_le (Nat.not_lt.1 inside), List.length_nil,
      Nat.zero_add]

/-- Takes passes off a stack until it is empty. One that is seen for the first time puts its
dependents on the stack, the last of them uppermost. -/
def spread (graph : RequirementGraph) (seen : Finset PassId) : List PassId → Finset PassId
  | [] => seen
  | id :: stack =>
      if id ∈ seen then
        graph.spread seen stack
      else
        graph.spread (insert id seen) ((graph.dependents id).reverse ++ stack)
termination_by stack => stack.length + graph.outstanding seen
decreasing_by
  · simp
  · rename_i new
    rw [← graph.outstanding_insert new]
    simp
    omega

/-- What holds at every turn of the work for a pass: what was seen or is on the stack depends on the
pass, and no dependent of the pass or of what was seen was lost. -/
structure Spreading (graph : RequirementGraph) (root : PassId) (seen : Finset PassId)
    (stack : List PassId) : Prop where
  reached : ∀ id, id ∈ seen ∨ id ∈ stack →
    TransGen (fun source target => target ∈ graph.dependents source) root id
  kept : ∀ id, id = root ∨ id ∈ seen →
    ∀ dependent ∈ graph.dependents id, dependent ∈ seen ∨ dependent ∈ stack

namespace Spreading

variable {graph : RequirementGraph} {root id : PassId} {seen : Finset PassId} {stack : List PassId}

theorem start (graph : RequirementGraph) (root : PassId) :
    graph.Spreading root ∅ (graph.dependents root).reverse where
  reached id := by
    rintro (isSeen | isWaiting)
    · exact absurd isSeen (Finset.notMem_empty id)
    · exact .single (List.mem_reverse.1 isWaiting)
  kept id := by
    rintro (rfl | isSeen) dependent isDependent
    · exact .inr (List.mem_reverse.2 isDependent)
    · exact absurd isSeen (Finset.notMem_empty id)

theorem again (spreading : graph.Spreading root seen (id :: stack)) (isSeen : id ∈ seen) :
    graph.Spreading root seen stack where
  reached other isThere := spreading.reached other (isThere.imp_right (List.mem_cons_of_mem id))
  kept other isSource dependent isDependent := by
    rcases spreading.kept other isSource dependent isDependent with wasSeen | isWaiting
    · exact .inl wasSeen
    · rcases List.mem_cons.1 isWaiting with rfl | isWaiting
      · exact .inl isSeen
      · exact .inr isWaiting

theorem first (spreading : graph.Spreading root seen (id :: stack)) :
    graph.Spreading root (insert id seen) ((graph.dependents id).reverse ++ stack) where
  reached other isThere := by
    have idReached := spreading.reached id (.inr List.mem_cons_self)
    simp only [Finset.mem_insert, List.mem_append, List.mem_reverse] at isThere
    rcases isThere with (rfl | wasSeen) | isDependent | isWaiting
    · exact idReached
    · exact spreading.reached other (.inl wasSeen)
    · exact idReached.tail isDependent
    · exact spreading.reached other (.inr (List.mem_cons_of_mem id isWaiting))
  kept other isSource dependent isDependent := by
    have wasKept : ∀ other, other = root ∨ other ∈ seen → ∀ dependent ∈ graph.dependents other,
        dependent ∈ insert id seen ∨ dependent ∈ (graph.dependents id).reverse ++ stack := by
      intro other isSource dependent isDependent
      rcases spreading.kept other isSource dependent isDependent with wasSeen | isWaiting
      · exact .inl (Finset.mem_insert_of_mem wasSeen)
      · rcases List.mem_cons.1 isWaiting with rfl | isWaiting
        · exact .inl (Finset.mem_insert_self dependent seen)
        · exact .inr (List.mem_append_right _ isWaiting)
    rcases isSource with isRoot | isSeen
    · exact wasKept other (.inl isRoot) dependent isDependent
    · rcases Finset.mem_insert.1 isSeen with rfl | wasSeen
      · exact .inr (List.mem_append_left _ (List.mem_reverse.2 isDependent))
      · exact wasKept other (.inr wasSeen) dependent isDependent

/-- The stack runs empty, and nothing of this is lost on the way. -/
theorem spread (spreading : graph.Spreading root seen stack) :
    graph.Spreading root (graph.spread seen stack) [] := by
  induction seen, stack using RequirementGraph.spread.induct graph with
  | case1 seen => rwa [RequirementGraph.spread]
  | case2 seen id stack isSeen inductionHypothesis =>
      rw [RequirementGraph.spread, if_pos isSeen]
      exact inductionHypothesis (spreading.again isSeen)
  | case3 seen id stack new inductionHypothesis =>
      rw [RequirementGraph.spread, if_neg new]
      exact inductionHypothesis spreading.first

/-- Once the stack is empty, what was seen is what depends on the pass. -/
theorem mem_iff (spreading : graph.Spreading root seen []) :
    id ∈ seen ↔ TransGen (fun source target => target ∈ graph.dependents source) root id := by
  constructor
  · exact fun isSeen => spreading.reached id (.inl isSeen)
  · intro way
    induction way with
    | single isDependent => simpa using spreading.kept root (.inl rfl) _ isDependent
    | tail _ isDependent inductionHypothesis =>
        simpa using spreading.kept _ (.inr inductionHypothesis) _ isDependent

end Spreading

/-- The work that starts from the dependents of a pass sees its transitive dependents. -/
theorem sort_spread (graph : RequirementGraph) (id : PassId) :
    (graph.spread ∅ (graph.dependents id).reverse).sort = graph.transitiveDependents id := by
  have ended := (Spreading.start graph id).spread
  refine (Finset.sortedLT_sort _).eq_of_mem_iff (pairwise_ascending _).sortedLT fun other => ?_
  rw [Finset.mem_sort, ended.mem_iff, mem_transitiveDependents]

/-- For edges that all start at one of the passes there is a graph. It has as many edges as there are
different ones. For every pass, the stack runs empty and has then seen the transitive dependents of
the pass; these are in ascending order, and they are what one or more of the edges reach. -/
theorem ofEdges?_transitiveDependents {count : Nat} {edges : List (PassId × PassId)}
    (inside : ∀ edge ∈ edges, edge.1 < count) :
    ∃ graph, ofEdges? count edges = some graph ∧ graph.edgeCount = edges.toFinset.card ∧
      ∀ id, (graph.spread ∅ (graph.dependents id).reverse).sort = graph.transitiveDependents id ∧
        (graph.transitiveDependents id).Pairwise (· < ·) ∧
        ∀ other, other ∈ graph.transitiveDependents id ↔
          TransGen (fun prerequisite dependent => (prerequisite, dependent) ∈ edges) id other := by
  have isGraph : ofEdges? count edges = some (ofEdges count edges) := by
    rw [ofEdges?, if_pos (by simpa using inside)]
  refine ⟨_, isGraph, edgeCount_ofEdges inside, fun id => ?_⟩
  refine ⟨sort_spread _ id, pairwise_ascending _, fun other => ?_⟩
  have sameEdges : (fun source target => target ∈ (ofEdges count edges).dependents source) =
      fun prerequisite dependent => (prerequisite, dependent) ∈ edges := by
    funext prerequisite dependent
    rw [mem_dependents_ofEdges, eq_iff_iff, and_iff_right_iff_imp]
    exact inside (prerequisite, dependent)
  rw [mem_transitiveDependents, sameEdges]

/-- Two passes in a circle, from which a third and a number beyond the table are reached; one edge is
given twice. -/
theorem ofEdges?_transitiveDependents_looped :
    let edges := [(0, 1), (1, 0), (1, 7), (0, 2), (0, 1)]
    (∀ edge ∈ edges, edge.1 < 3) ∧
      ∃ graph, ofEdges? 3 edges = some graph ∧ graph.edgeCount = 4 ∧
        graph.transitiveDependents 1 = [0, 1, 2, 7] ∧ graph.transitiveDependents 7 = [] ∧
        TransGen (fun prerequisite dependent => (prerequisite, dependent) ∈ edges) 1 1 ∧
        ¬ TransGen (fun prerequisite dependent => (prerequisite, dependent) ∈ edges) 2 1 := by
  intro edges
  have inside : ∀ edge ∈ edges, edge.1 < 3 := by decide
  obtain ⟨graph, isGraph, counted, each⟩ := ofEdges?_transitiveDependents inside
  obtain rfl : ofEdges 3 edges = graph := Option.some.inj isGraph
  have fromOne : (ofEdges 3 edges).transitiveDependents 1 = [0, 1, 2, 7] := by cbv
  have fromTwo : (ofEdges 3 edges).transitiveDependents 2 = [] := by cbv
  have fromSeven : (ofEdges 3 edges).transitiveDependents 7 = [] := by cbv
  refine ⟨inside, _, isGraph, counted, fromOne, fromSeven, ?_, fun way => ?_⟩
  · rw [← (each 1).2.2, fromOne]
    simp
  · rw [← (each 2).2.2, fromTwo] at way
    simp at way

end PassScheduler.RequirementGraph
