import PassScheduler.Proofs.Graph.ClosedWalk

/-!
Contract: the order in which a search leaves the nodes that it enters.

A plan is worked off one visit after the other: what is left on the way to a visit is not fresh any
more when the visit comes. A search is thereby told as a recursion over its starts.

Owns:
- the nodes that stay fresh beside those that were left;
- a search told of its first start and of the others;
- that a search leaves no node twice.

Does not own: which nodes a search reaches.
-/

namespace PassScheduler.Search

variable {α : Type} [DecidableEq α] {next : α → List α}

/-- The fresh nodes that are not among those that were left. -/
def stillFresh (fresh left : List α) : List α :=
  fresh.filter (· ∉ left)

theorem mem_stillFresh {fresh left : List α} {node : α} :
    node ∈ stillFresh fresh left ↔ node ∈ fresh ∧ node ∉ left := by
  simp [stillFresh]

@[simp] theorem stillFresh_nil (fresh : List α) : stillFresh fresh [] = fresh := by
  simp [stillFresh]

theorem without_eq_self {fresh : List α} {node : α} (notFresh : node ∉ fresh) :
    without node fresh = fresh := by
  refine List.filter_eq_self.2 fun other isFresh => ?_
  have distinct : other ≠ node := by
    rintro rfl
    exact notFresh isFresh
  simpa using distinct

/-- What is not fresh anyway can be left out of account. -/
theorem stillFresh_cons {fresh left : List α} {node : α} (notFresh : node ∉ fresh) :
    stillFresh fresh (node :: left) = stillFresh fresh left := by
  refine List.filter_congr fun other isFresh => ?_
  have distinct : other ≠ node := by
    rintro rfl
    exact notFresh isFresh
  simp [distinct]

theorem stillFresh_without {fresh left : List α} {node : α} (isLeft : node ∈ left) :
    stillFresh (without node fresh) left = stillFresh fresh left := by
  rw [stillFresh, stillFresh, without, List.filter_filter]
  refine List.filter_congr fun other _ => ?_
  by_cases same : other = node
  · simp [same, isLeft]
  · simp [same]

omit [DecidableEq α] in
private theorem mem_leaves {node : α} {plan : List (Visit α)} :
    node ∈ leaves plan ↔ .leave node ∈ plan := by
  induction plan with
  | nil => simp [leaves]
  | cons visit plan inductionHypothesis => cases visit <;> simp [leaves, inductionHypothesis]

omit [DecidableEq α] in
theorem Leads.fresh {fresh : List α} {start node : α} (leads : Leads next fresh start node) :
    node ∈ fresh := by
  obtain ⟨startFresh, way⟩ := leads
  cases way with
  | refl => exact startFresh
  | tail _ edge => exact edge.2

/-- None of the nodes that a plan is to leave is fresh: they were entered before. -/
def Entered (fresh : List α) (plan : List (Visit α)) : Prop :=
  ∀ node, .leave node ∈ plan → node ∉ fresh

omit [DecidableEq α] in
theorem entered_map_enter (fresh starts : List α) : Entered fresh (starts.map .enter) := by
  simp [Entered]

omit [DecidableEq α] in
theorem Entered.tail {fresh : List α} {visit : Visit α} {plan : List (Visit α)}
    (entered : Entered fresh (visit :: plan)) :
    Entered fresh plan :=
  fun node member => entered node (List.mem_cons_of_mem visit member)

theorem Entered.expand {fresh : List α} {node : α} {plan : List (Visit α)}
    (entered : Entered fresh (.enter node :: plan)) :
    Entered (without node fresh) (expand next node plan) := by
  intro other isLeft isFresh
  obtain ⟨wasFresh, distinct⟩ := mem_without.1 isFresh
  have isLater : .leave other ∈ plan := by simpa [Search.expand, distinct] using isLeft
  exact entered other (List.mem_cons_of_mem _ isLater) wasFresh

/-- The second of two plans is worked off after the first, on what is still fresh then. -/
theorem postOrder_append {fresh : List α} {plan : List (Visit α)} (entered : Entered fresh plan)
    (more : List (Visit α)) :
    postOrder next fresh (plan ++ more) =
      postOrder next fresh plan ++
        postOrder next (stillFresh fresh (postOrder next fresh plan)) more := by
  induction fresh, plan using postOrder.induct next with
  | case1 fresh => simp [postOrder, stillFresh]
  | case2 fresh node plan inductionHypothesis =>
      have notFresh := entered node List.mem_cons_self
      rw [List.cons_append, postOrder, postOrder, inductionHypothesis entered.tail,
        stillFresh_cons notFresh]
      rfl
  | case3 fresh node plan isFresh inductionHypothesis =>
      have isLeft : node ∈ postOrder next (without node fresh) (expand next node plan) :=
        (mem_postOrder _ _ _ _).2 (.inl (by simp [expand]))
      have split : expand next node (plan ++ more) = expand next node plan ++ more := by
        simp [expand]
      rw [List.cons_append, postOrder, if_pos isFresh, postOrder, if_pos isFresh, split,
        inductionHypothesis entered.expand, stillFresh_without isLeft]
  | case4 fresh node plan notFresh inductionHypothesis =>
      rw [List.cons_append, postOrder, if_neg notFresh, postOrder, if_neg notFresh,
        inductionHypothesis entered.tail]

/-! ## A search told of its starts -/

@[simp] theorem reachable_nil (next : α → List α) (fresh : List α) :
    reachable next fresh [] = [] := by
  simp [reachable, postOrder]

/-- A start that is not fresh is passed over. -/
theorem reachable_cons_of_notMem {fresh : List α} {start : α} (notFresh : start ∉ fresh)
    (rest : List α) :
    reachable next fresh (start :: rest) = reachable next fresh rest := by
  rw [reachable, List.map_cons, postOrder, if_neg notFresh, reachable]

/-- What a fresh start leads to is left first, then the start itself, and then what the other starts
lead to. -/
theorem reachable_cons_of_mem {fresh : List α} {start : α} (isFresh : start ∈ fresh)
    (rest : List α) :
    reachable next fresh (start :: rest) =
      reachable next (without start fresh) (next start) ++ start ::
        reachable next
          (stillFresh (without start fresh) (reachable next (without start fresh) (next start)))
          rest := by
  rw [reachable, List.map_cons, postOrder, if_pos isFresh, expand,
    postOrder_append (entered_map_enter _ _), postOrder]
  rfl

/-- A fresh start is left. -/
theorem mem_reachable_of_mem {fresh starts : List α} {start : α} (isStart : start ∈ starts)
    (isFresh : start ∈ fresh) :
    start ∈ reachable next fresh starts :=
  (mem_postOrder _ _ _ _).2
    (.inr ⟨start, List.mem_map_of_mem isStart, isFresh, .refl⟩)

/-- A fresh successor of what is left is left, too. -/
theorem mem_reachable_of_next {fresh starts : List α} {node target : α}
    (isLeft : node ∈ reachable next fresh starts) (isNext : target ∈ next node)
    (isFresh : target ∈ fresh) :
    target ∈ reachable next fresh starts := by
  rcases (mem_postOrder _ _ _ _).1 isLeft with isLeave | ⟨start, isStart, startFresh, way⟩
  · simp at isLeave
  · exact (mem_postOrder _ _ _ _).2
      (.inr ⟨start, isStart, startFresh, way.tail ⟨isNext, isFresh⟩⟩)

/-- Where no start is fresh, nothing is left. -/
theorem reachable_eq_nil {fresh starts : List α} (noneFresh : ∀ start ∈ starts, start ∉ fresh) :
    reachable next fresh starts = [] := by
  induction starts with
  | nil => exact reachable_nil next fresh
  | cons start rest inductionHypothesis =>
      obtain ⟨notFresh, others⟩ := List.forall_mem_cons.1 noneFresh
      rw [reachable_cons_of_notMem notFresh, inductionHypothesis others]

/-! ## No node is left twice -/

theorem nodup_postOrder {fresh : List α} {plan : List (Visit α)} (entered : Entered fresh plan)
    (once : (leaves plan).Nodup) :
    (postOrder next fresh plan).Nodup := by
  induction fresh, plan using postOrder.induct next with
  | case1 fresh => simp [postOrder]
  | case2 fresh node plan inductionHypothesis =>
      obtain ⟨notLater, onceRest⟩ := List.nodup_cons.1 once
      rw [postOrder]
      refine List.nodup_cons.2 ⟨fun member => ?_, inductionHypothesis entered.tail onceRest⟩
      rcases (mem_postOrder _ _ _ _).1 member with isLeft | ⟨start, _, leads⟩
      · exact notLater (mem_leaves.2 isLeft)
      · exact entered node List.mem_cons_self leads.fresh
  | case3 fresh node plan isFresh inductionHypothesis =>
      have notLeft : node ∉ leaves plan := fun isLeft =>
        entered node (List.mem_cons_of_mem _ (mem_leaves.1 isLeft)) isFresh
      rw [postOrder, if_pos isFresh]
      refine inductionHypothesis entered.expand ?_
      rw [expand, leaves_map_enter, leaves]
      exact List.nodup_cons.2 ⟨notLeft, once⟩
  | case4 fresh node plan notFresh inductionHypothesis =>
      rw [postOrder, if_neg notFresh]
      exact inductionHypothesis entered.tail once

theorem nodup_reachable (next : α → List α) (fresh starts : List α) :
    (reachable next fresh starts).Nodup := by
  refine nodup_postOrder (entered_map_enter fresh starts) ?_
  have noLeaves : leaves (starts.map .enter) = [] := by
    simpa [leaves] using leaves_map_enter starts []
  rw [noLeaves]
  exact List.nodup_nil

end PassScheduler.Search
