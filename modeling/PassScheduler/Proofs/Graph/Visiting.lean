import PassScheduler.Proofs.Collection.Occurrence
import PassScheduler.Proofs.Graph.PostOrder

/-!
Contract: a search is the recursion that passes over what it has visited before.

The recursion marks a node as visited, visits the successors of the node in turn, and then lists the
node. It is told as a relation, so a list for given nodes means that the recursion ends.

Owns:
- the recursion, with one outcome at most, and that a search is its outcome;
- what it covers, what it comes to, and after which of its successors a node is listed.

Does not own: the plan by which a search is worked off.
-/

open Relation (ReflTransGen TransGen)

namespace PassScheduler.Search

variable {α : Type}

/-- Visiting nodes one after the other, when some were visited before, lists these nodes. -/
inductive Visits (next : α → List α) : (visited nodes listed : List α) → Prop where
  | done (visited : List α) : Visits next visited [] []
  | seen {visited rest listed : List α} {node : α} (isSeen : node ∈ visited)
      (others : Visits next visited rest listed) :
      Visits next visited (node :: rest) listed
  | enter {visited rest below listed : List α} {node : α} (isNew : node ∉ visited)
      (inner : Visits next (node :: visited) (next node) below)
      (others : Visits next (below ++ node :: visited) rest listed) :
      Visits next visited (node :: rest) (below ++ node :: listed)

namespace Visits

variable {next : α → List α} {visited nodes listed : List α}

theorem unique {other : List α} (visits : Visits next visited nodes listed)
    (again : Visits next visited nodes other) :
    listed = other := by
  induction visits generalizing other with
  | done visited =>
      cases again
      rfl
  | seen isSeen _ inductionHypothesis =>
      cases again with
      | seen _ others => exact inductionHypothesis others
      | enter isNew _ _ => exact absurd isSeen isNew
  | enter isNew _ _ innerHypothesis othersHypothesis =>
      cases again with
      | seen isSeen _ => exact absurd isSeen isNew
      | enter _ inner others =>
          obtain rfl := innerHypothesis inner
          obtain rfl := othersHypothesis others
          rfl

/-- Every one of the nodes was visited before or is listed. -/
theorem covers (visits : Visits next visited nodes listed) :
    ∀ node ∈ nodes, node ∈ visited ∨ node ∈ listed := by
  induction visits with
  | done visited => simp
  | @seen visited rest listed node isSeen _ inductionHypothesis =>
      exact List.forall_mem_cons.2 ⟨.inl isSeen, inductionHypothesis⟩
  | @enter visited rest below listed node _ _ _ _ inductionHypothesis =>
      refine List.forall_mem_cons.2 ⟨.inr (by simp), fun other isLater => ?_⟩
      have covered := inductionHypothesis other isLater
      simp only [List.mem_append, List.mem_cons] at covered ⊢
      tauto

/-- What is listed is reached from one of the nodes. -/
theorem reaches (visits : Visits next visited nodes listed) :
    ∀ node ∈ listed, ∃ start ∈ nodes,
      ReflTransGen (fun source target => target ∈ next source) start node := by
  induction visits with
  | done visited => simp
  | seen _ _ inductionHypothesis =>
      intro node isListed
      obtain ⟨start, isStart, way⟩ := inductionHypothesis node isListed
      exact ⟨start, List.mem_cons_of_mem _ isStart, way⟩
  | @enter visited rest below listed entered _ _ _ innerHypothesis othersHypothesis =>
      intro node isListed
      rcases List.mem_append.1 isListed with isBelow | isLater
      · obtain ⟨start, isNext, way⟩ := innerHypothesis node isBelow
        exact ⟨entered, List.mem_cons_self, .head isNext way⟩
      · rcases List.mem_cons.1 isLater with rfl | isLater
        · exact ⟨node, List.mem_cons_self, .refl⟩
        · obtain ⟨start, isStart, way⟩ := othersHypothesis node isLater
          exact ⟨start, List.mem_cons_of_mem _ isStart, way⟩

/-- Where a node stands in what entering another node lists. -/
private theorem place_in_entered {below listed before after : List α} {entered node : α}
    (split : below ++ entered :: listed = before ++ node :: after) :
    (∃ between, below = before ++ node :: between) ∨ (below = before ∧ entered = node) ∨
      ∃ between, before = below ++ entered :: between ∧ listed = between ++ node :: after := by
  rcases append_eq_append_cons_iff.1 split with ⟨between, isBelow, _⟩ | ⟨between, rfl, rest⟩
  · exact .inl ⟨between, isBelow⟩
  · cases between with
    | nil => exact .inr (.inl ⟨(List.append_nil _).symm, (List.cons.inj rest).1⟩)
    | cons first between =>
        obtain ⟨rfl, isLater⟩ := List.cons.inj rest
        exact .inr (.inr ⟨between, rfl, isLater⟩)

/-- A node is listed after its successors. Only a successor that was visited before the recursion
began, or that leads back to the node, may be missing there. -/
theorem ordered (visits : Visits next visited nodes listed) {before after : List α}
    {node target : α} (split : listed = before ++ node :: after) (isNext : target ∈ next node) :
    target ∈ visited ∨ target ∈ before ∨
      ReflTransGen (fun source target => target ∈ next source) target node := by
  -- By induction on the recursion. What lies below an entered node finds that node visited, but
  -- the entered node leads to it, so such a successor leads back.
  induction visits generalizing before after with
  | done visited => simp at split
  | seen _ _ inductionHypothesis => exact inductionHypothesis split
  | @enter visited rest below listed entered _ inner _ innerHypothesis othersHypothesis =>
      rcases place_in_entered split with
        ⟨between, isBelow⟩ | ⟨rfl, rfl⟩ | ⟨between, rfl, isLater⟩
      · rcases innerHypothesis isBelow with isVisited | told
        · rcases List.mem_cons.1 isVisited with rfl | isVisited
          · obtain ⟨start, isStart, way⟩ := inner.reaches node (by simp [isBelow])
            exact .inr (.inr (.head isStart way))
          · exact .inl isVisited
        · exact .inr told
      · rcases inner.covers target isNext with isVisited | isBelow
        · rcases List.mem_cons.1 isVisited with rfl | isVisited
          · exact .inr (.inr .refl)
          · exact .inl isVisited
        · exact .inr (.inl isBelow)
      · have told := othersHypothesis isLater
        simp only [List.mem_append, List.mem_cons] at told ⊢
        tauto

end Visits

variable [DecidableEq α] {next : α → List α} {known : List α}

/-- A search is the recursion, where a known node is fresh as long as it was not visited. -/
theorem visits_reachable (closed : ∀ source, ∀ target ∈ next source, target ∈ known)
    {fresh visited starts : List α} (areKnown : ∀ start ∈ starts, start ∈ known)
    (unvisited : ∀ node ∈ known, node ∈ fresh ↔ node ∉ visited) :
    Visits next visited starts (reachable next fresh starts) := by
  match starts with
  | [] =>
      rw [reachable_nil]
      exact .done visited
  | start :: rest =>
      obtain ⟨isKnown, restKnown⟩ := List.forall_mem_cons.1 areKnown
      by_cases isFresh : start ∈ fresh
      · rw [reachable_cons_of_mem isFresh]
        have fewer := length_without_lt isFresh
        -- Below the node, it is no longer fresh; beside it, what lies below is not fresh either.
        refine .enter ((unvisited start isKnown).1 isFresh)
          (visits_reachable closed (closed start) ?_) (visits_reachable closed restKnown ?_)
        · intro node nodeKnown
          rw [mem_without, unvisited node nodeKnown, List.mem_cons]
          tauto
        · intro node nodeKnown
          rw [mem_stillFresh, mem_without, unvisited node nodeKnown, List.mem_append, List.mem_cons]
          tauto
      · rw [reachable_cons_of_notMem isFresh]
        have isSeen : start ∈ visited := by
          by_contra isNew
          exact isFresh ((unvisited start isKnown).2 isNew)
        exact .seen isSeen (visits_reachable closed restKnown unvisited)
termination_by (fresh.length, starts.length)
decreasing_by
  · exact .left _ _ fewer
  · exact .left _ _ (Nat.lt_of_le_of_lt (List.length_filter_le _ _) fewer)
  · exact .right _ (by simp)

end PassScheduler.Search
