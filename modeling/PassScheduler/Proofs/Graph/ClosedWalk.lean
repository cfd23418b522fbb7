import Mathlib.Data.List.Chain
import Mathlib.Data.List.Nodup
import Mathlib.Logic.Relation
import PassScheduler.Proofs.Graph.Reachability

/-!
Contract: a search comes upon a closed walk iff there is one.

While a plan is worked off, what is still to be left is exactly the path from a start to the node
of the moment, and every successor of a node on that path is grounded already or has its visit
planned before the node is left. A node is therefore grounded when it is left, unless a visit leads
back to the path.

Owns:
- circles and grounded nodes, of which a node is never on the one and the other;
- that what `closedWalk?` finds is a circle, and that where it finds none all nodes are grounded.

Does not own: which of several circles is found.
-/

open Relation (ReflTransGen TransGen)

namespace PassScheduler.Search

section Edges

variable {α : Type} {edge : α → α → Prop}

/-- A walk that ends where it began and comes to no other node twice. -/
structure Circle (edge : α → α → Prop) (walk : List α) : Prop where
  steps : walk.IsChain edge
  closes : walk.head? = walk.getLast?
  long : 2 ≤ walk.length
  once : walk.dropLast.Nodup

/-- Every walk from the node comes to an end. -/
def Grounded (edge : α → α → Prop) (node : α) : Prop :=
  Acc (Function.swap edge) node

theorem Grounded.of_edges {node : α} (all : ∀ target, edge node target → Grounded edge target) :
    Grounded edge node :=
  Acc.intro node all

theorem Grounded.target {node target : α} (grounded : Grounded edge node)
    (isEdge : edge node target) :
    Grounded edge target :=
  Acc.inv grounded isEdge

theorem Grounded.reach {node target : α} (grounded : Grounded edge node)
    (way : ReflTransGen edge node target) :
    Grounded edge target := by
  induction way with
  | refl => exact grounded
  | tail _ isEdge inductionHypothesis => exact inductionHypothesis.target isEdge

theorem Grounded.not_transGen {node : α} (grounded : Grounded edge node) :
    ¬ TransGen edge node node := by
  induction grounded with
  | intro node _ inductionHypothesis =>
      intro circle
      obtain ⟨target, isEdge, back⟩ := TransGen.head'_iff.1 circle
      exact inductionHypothesis target isEdge (TransGen.tail' back isEdge)

/-- Each node of a walk leads to the last one, and all but the last one by at least one edge. -/
theorem transGen_of_isChain {first last : α} {middle : List α}
    (steps : (first :: middle ++ [last]).IsChain edge) :
    TransGen edge first last := by
  induction middle generalizing first with
  | nil => exact .single (List.isChain_pair.1 steps)
  | cons second rest inductionHypothesis =>
      obtain ⟨isEdge, others⟩ := List.isChain_cons_cons.1 steps
      exact .head isEdge (inductionHypothesis others)

theorem Circle.exists_transGen {walk : List α} (circle : Circle edge walk) :
    ∃ node ∈ walk, TransGen edge node node := by
  obtain ⟨steps, closes, long, _⟩ := circle
  match walk, long with
  | first :: second :: rest, _ =>
      obtain ⟨middle, last, split⟩ : ∃ middle last, second :: rest = middle ++ [last] :=
        ⟨_, _, (List.dropLast_concat_getLast (List.cons_ne_nil second rest)).symm⟩
      rw [split] at closes steps ⊢
      obtain rfl : first = last := by
        rw [← List.cons_append, List.getLast?_concat] at closes
        simpa using closes
      exact ⟨first, by simp, transGen_of_isChain steps⟩

/-- Every node of a circle is the end of one of its edges. -/
theorem Circle.exists_source {walk : List α} (circle : Circle edge walk) :
    ∀ node ∈ walk, ∃ source ∈ walk, edge source node := by
  have later : ∀ (first : α) (rest : List α), (first :: rest).IsChain edge → ∀ node ∈ rest,
      ∃ source ∈ first :: rest, edge source node := by
    intro first rest steps
    induction rest generalizing first with
    | nil => simp
    | cons second rest inductionHypothesis =>
        obtain ⟨isEdge, others⟩ := List.isChain_cons_cons.1 steps
        intro node mem
        rcases List.mem_cons.1 mem with rfl | mem
        · exact ⟨first, by simp, isEdge⟩
        · obtain ⟨source, isSource, isNext⟩ := inductionHypothesis second others node mem
          exact ⟨source, .tail _ isSource, isNext⟩
  obtain ⟨steps, closes, long, _⟩ := circle
  match walk, long with
  | first :: second :: rest, _ =>
      intro node mem
      refine later first (second :: rest) steps node ?_
      rcases List.mem_cons.1 mem with rfl | mem
      · refine List.mem_of_getLast? ?_
        rw [← List.getLast?_cons_cons, ← closes]
        rfl
      · exact mem

/-- A circle of edges is one of other edges that hold between ends of the former. -/
theorem Circle.imp {other : α → α → Prop} {walk : List α} (circle : Circle edge walk)
    (implied : ∀ before source target, edge before source → edge source target →
      other source target) :
    Circle other walk where
  steps := by
    refine circle.steps.imp_of_mem_imp fun source target mem _ isEdge => ?_
    obtain ⟨before, _, isBefore⟩ := circle.exists_source source mem
    exact implied before source target isBefore isEdge
  closes := circle.closes
  long := circle.long
  once := circle.once

variable [DecidableEq α]

/-- A way that leads back to one of its nodes is a circle from there on. -/
theorem circle_of_way {way : List α} {node : α} (steps : way.IsChain edge) (once : way.Nodup)
    (onWay : node ∈ way) (back : ∀ last ∈ way.getLast?, edge last node) :
    Circle edge (way.dropWhile (· ≠ node) ++ [node]) := by
  obtain ⟨before, after, rfl⟩ := List.append_of_mem onWay
  have others : ∀ other ∈ before, decide (other ≠ node) = true := by
    rintro other mem
    have distinct := (List.nodup_append.1 once).2.2 other mem node (by simp)
    simpa using distinct
  have rest : (before ++ node :: after).dropWhile (· ≠ node) = node :: after := by
    rw [List.dropWhile_append_of_pos others, List.dropWhile_cons_of_neg (by simp)]
  rw [rest]
  have stepsOfRest := steps.right_of_append
  refine ⟨?_, by rw [List.getLast?_concat]; rfl, by simp, ?_⟩
  · refine stepsOfRest.append (List.isChain_singleton node) ?_
    rintro last isLast _ ⟨⟩
    refine back last ?_
    rwa [List.getLast?_append_of_ne_nil _ (List.cons_ne_nil node after)]
  · rw [List.dropLast_concat]
    exact (List.nodup_append.1 once).2.1

end Edges

section Search

variable {α : Type} {next : α → List α}

/-- An edge of the graph in which `next` gives the successors. -/
abbrev Joins (next : α → List α) (source target : α) : Prop :=
  target ∈ next source

def Visit.node : Visit α → α
  | .enter node => node
  | .leave node => node

/-- The nodes that a plan leaves, in order. -/
def leaves : List (Visit α) → List α
  | [] => []
  | .enter _ :: plan => leaves plan
  | .leave node :: plan => node :: leaves plan

@[simp] theorem leaves_map_enter (nodes : List α) (plan : List (Visit α)) :
    leaves (nodes.map .enter ++ plan) = leaves plan := by
  induction nodes with
  | nil => rfl
  | cons first rest inductionHypothesis => simpa [leaves] using inductionHypothesis

/-! ## What a plan keeps to -/

/-- Every visit of a plan is to a successor of the node that is left next after it. -/
def Descends (next : α → List α) : List (Visit α) → Prop
  | [] => True
  | visit :: plan =>
      (∀ parent ∈ (leaves plan).head?, Joins next parent visit.node) ∧ Descends next plan

theorem descends_starts (starts : List α) : Descends next (starts.map .enter) := by
  induction starts with
  | nil => trivial
  | cons first rest inductionHypothesis =>
      have noLeaves : leaves (rest.map .enter) = [] := by
        simpa [leaves] using leaves_map_enter rest []
      exact ⟨by simp [noLeaves], inductionHypothesis⟩

theorem Descends.expand {node : α} {plan : List (Visit α)}
    (descends : Descends next (.enter node :: plan)) :
    Descends next (Search.expand next node plan) := by
  have fromNode : ∀ children : List α, (∀ child ∈ children, child ∈ next node) →
      Descends next (children.map .enter ++ .leave node :: plan) := by
    intro children areNext
    induction children with
    | nil => exact descends
    | cons first rest inductionHypothesis =>
        obtain ⟨isNext, others⟩ := List.forall_mem_cons.1 areNext
        refine ⟨?_, inductionHypothesis others⟩
        intro parent isParent
        obtain rfl : node = parent := by simpa [leaves] using isParent
        exact isNext
  exact fromNode (next node) fun _ mem => mem

/-- The nodes that a plan leaves form a way, the last one first. -/
theorem Descends.isChain {plan : List (Visit α)} (descends : Descends next plan) :
    (leaves plan).IsChain (fun target source => Joins next source target) := by
  induction plan with
  | nil => exact List.isChain_nil
  | cons visit plan inductionHypothesis =>
      obtain ⟨isNext, rest⟩ := descends
      cases visit with
      | enter node => exact inductionHypothesis rest
      | leave node => exact List.isChain_cons.2 ⟨isNext, inductionHypothesis rest⟩

/-- When a node is left, its successors are grounded or have been visited by then: they are among
`visited`, or the plan visits them before. -/
def Prepared (next : α → List α) (visited : List α) : List (Visit α) → Prop
  | [] => True
  | .enter node :: plan => Prepared next (node :: visited) plan
  | .leave node :: plan =>
      (∀ child ∈ next node, Grounded (Joins next) child ∨ child ∈ visited) ∧
        Prepared next (node :: visited) plan

theorem Prepared.mono {visited others : List α} {plan : List (Visit α)}
    (prepared : Prepared next visited plan)
    (covered : ∀ node ∈ visited, Grounded (Joins next) node ∨ node ∈ others) :
    Prepared next others plan := by
  induction plan generalizing visited others with
  | nil => trivial
  | cons visit plan inductionHypothesis =>
      have coveredAfter : ∀ node ∈ visit.node :: visited,
          Grounded (Joins next) node ∨ node ∈ visit.node :: others := by
        intro node mem
        rcases List.mem_cons.1 mem with rfl | mem
        · exact .inr (by simp)
        · exact (covered node mem).imp_right (List.mem_cons_of_mem _)
      cases visit with
      | enter node => exact inductionHypothesis prepared coveredAfter
      | leave node =>
          refine ⟨fun child isNext => ?_, inductionHypothesis prepared.2 coveredAfter⟩
          rcases prepared.1 child isNext with grounded | mem
          · exact .inl grounded
          · exact covered child mem

theorem prepared_map_enter {visited nodes : List α} {plan : List (Visit α)} :
    Prepared next visited (nodes.map .enter ++ plan) ↔
      Prepared next (nodes.reverse ++ visited) plan := by
  induction nodes generalizing visited with
  | nil => rfl
  | cons first rest inductionHypothesis => simp [Prepared, inductionHypothesis]

theorem Prepared.expand {node : α} {plan : List (Visit α)}
    (prepared : Prepared next [] (.enter node :: plan)) :
    Prepared next [] (Search.expand next node plan) := by
  rw [Search.expand, prepared_map_enter]
  refine ⟨fun child isNext => .inr (by simpa using isNext), Prepared.mono prepared ?_⟩
  simp

/-- A grounded node need not be visited. -/
theorem Prepared.drop {node : α} {plan : List (Visit α)} (prepared : Prepared next [node] plan)
    (grounded : Grounded (Joins next) node) :
    Prepared next [] plan := by
  refine prepared.mono fun other mem => .inl ?_
  rwa [List.mem_singleton.1 mem]

/-! ## The search -/

variable {nodes fresh path : List α} {plan : List (Visit α)}

/-- What a search keeps, among nodes that no edge leaves. -/
structure Works (next : α → List α) (nodes fresh path : List α) (plan : List (Visit α)) :
    Prop where
  aligned : leaves plan = path
  descends : Descends next plan
  once : path.Nodup
  entered : ∀ node ∈ path, node ∉ fresh
  known : ∀ visit ∈ plan, visit.node ∈ nodes
  prepared : Prepared next [] plan
  grounded : ∀ node ∈ nodes, node ∉ fresh → node ∉ path → Grounded (Joins next) node

namespace Works

theorem start (next : α → List α) (nodes : List α) :
    Works next nodes nodes [] (nodes.map .enter) where
  aligned := by simpa [leaves] using leaves_map_enter nodes []
  descends := descends_starts nodes
  once := List.nodup_nil
  entered := by simp
  known := by simp [Visit.node]
  prepared := by
    have noPlan : Prepared next (nodes.reverse ++ []) [] := trivial
    simpa using prepared_map_enter.2 noPlan
  grounded := fun _ isKnown notFresh => absurd isKnown notFresh

/-- A node is left only when it is grounded. -/
theorem leave {node : α} (works : Works next nodes fresh path (.leave node :: plan)) :
    Grounded (Joins next) node ∧ Works next nodes fresh (path.drop 1) plan := by
  obtain ⟨rfl, ⟨_, descends⟩, once, entered, known, ⟨ready, prepared⟩, grounded⟩ := works
  have isGrounded : Grounded (Joins next) node :=
    .of_edges fun child isNext => (ready child isNext).resolve_right (by simp)
  obtain ⟨_, onceRest⟩ := List.nodup_cons.1 once
  obtain ⟨_, knownRest⟩ := List.forall_mem_cons.1 known
  refine ⟨isGrounded, rfl, descends, onceRest, fun other mem => entered other (.tail _ mem),
    knownRest, prepared.drop isGrounded, fun other isKnown notFresh offPath => ?_⟩
  by_cases same : other = node
  · exact same ▸ isGrounded
  · refine grounded other isKnown notFresh fun onPath => offPath ?_
    exact (List.mem_cons.1 onPath).resolve_left same

theorem enter [DecidableEq α] {node : α} (works : Works next nodes fresh path (.enter node :: plan))
    (closed : ∀ source, ∀ target ∈ next source, target ∈ nodes)
    (offPath : node ∉ path) :
    Works next nodes (without node fresh) (node :: path) (expand next node plan) := by
  obtain ⟨aligned, descends, once, entered, known, prepared, grounded⟩ := works
  obtain ⟨isKnown, knownRest⟩ := List.forall_mem_cons.1 known
  exact {
    aligned := by rw [expand, leaves_map_enter, leaves]; exact congrArg _ aligned
    descends := descends.expand
    once := List.nodup_cons.2 ⟨offPath, once⟩
    entered := by
      intro other mem isFresh
      obtain ⟨wasFresh, distinct⟩ := mem_without.1 isFresh
      exact entered other ((List.mem_cons.1 mem).resolve_left distinct) wasFresh
    known := by
      intro visit mem
      rcases List.mem_append.1 mem with mem | mem
      · obtain ⟨child, isNext, rfl⟩ := List.mem_map.1 mem
        exact closed node child isNext
      · rcases List.mem_cons.1 mem with rfl | mem
        · exact isKnown
        · exact knownRest visit mem
    prepared := prepared.expand
    grounded := by
      intro other isOther notFresh notOnPath
      obtain ⟨distinct, offRest⟩ := not_or.1 (mt List.mem_cons.2 notOnPath)
      exact grounded other isOther (fun isFresh => notFresh (mem_without.2 ⟨isFresh, distinct⟩))
        offRest }

/-- A node that was entered and left before is grounded, and its visit is skipped. -/
theorem skip {node : α} (works : Works next nodes fresh path (.enter node :: plan))
    (offPath : node ∉ path) (notFresh : node ∉ fresh) :
    Grounded (Joins next) node ∧ Works next nodes fresh path plan := by
  obtain ⟨aligned, ⟨_, descends⟩, once, entered, known, prepared, grounded⟩ := works
  obtain ⟨isKnown, knownRest⟩ := List.forall_mem_cons.1 known
  have isGrounded := grounded node isKnown notFresh offPath
  exact ⟨isGrounded, aligned, descends, once, entered, knownRest,
    Prepared.drop prepared isGrounded, grounded⟩

/-- A visit that leads back to the path closes a circle. -/
theorem circle [DecidableEq α] {node : α}
    (works : Works next nodes fresh path (.enter node :: plan))
    (onPath : node ∈ path) :
    Circle (Joins next) (path.reverse.dropWhile (· ≠ node) ++ [node]) := by
  obtain ⟨rfl, ⟨isNext, descends⟩, once, _⟩ := works
  refine circle_of_way (List.isChain_reverse.2 descends.isChain) (List.nodup_reverse.2 once)
    (List.mem_reverse.2 onPath) ?_
  rw [List.getLast?_reverse]
  exact isNext

end Works

variable [DecidableEq α]

/-- What a search finds is a circle; if it finds none, every node that it was to visit is
grounded. -/
theorem closedWalk?_of_works (works : Works next nodes fresh path plan)
    (closed : ∀ source, ∀ target ∈ next source, target ∈ nodes) :
    (∀ walk, closedWalk? next fresh path plan = some walk → Circle (Joins next) walk) ∧
      (closedWalk? next fresh path plan = none →
        ∀ visit ∈ plan, Grounded (Joins next) visit.node) := by
  induction fresh, path, plan using closedWalk?.induct next with
  | case1 => simp [closedWalk?]
  | case2 fresh path node plan inductionHypothesis =>
      obtain ⟨isGrounded, rest⟩ := works.leave
      rw [closedWalk?, List.forall_mem_cons]
      obtain ⟨found, noneFound⟩ := inductionHypothesis rest
      exact ⟨found, fun none => ⟨isGrounded, noneFound none⟩⟩
  | case3 fresh path node plan onPath =>
      rw [closedWalk?, if_pos onPath]
      refine ⟨?_, nofun⟩
      rintro _ ⟨⟩
      exact works.circle onPath
  | case4 fresh path node plan offPath isFresh inductionHypothesis =>
      rw [closedWalk?, if_neg offPath, if_pos isFresh, List.forall_mem_cons]
      obtain ⟨found, noneFound⟩ := inductionHypothesis (works.enter closed offPath)
      refine ⟨found, fun none => ⟨?_, fun visit mem => ?_⟩⟩
      · exact noneFound none (.leave node) (by simp [expand])
      · exact noneFound none visit (by simp [expand, mem])
  | case5 fresh path node plan offPath notFresh inductionHypothesis =>
      obtain ⟨isGrounded, rest⟩ := works.skip offPath notFresh
      rw [closedWalk?, if_neg offPath, if_neg notFresh, List.forall_mem_cons]
      obtain ⟨found, noneFound⟩ := inductionHypothesis rest
      exact ⟨found, fun none => ⟨isGrounded, noneFound none⟩⟩

/-- What a search from all nodes of a graph finds is a circle. -/
theorem circle_of_closedWalk? {walk : List α}
    (closed : ∀ source, ∀ target ∈ next source, target ∈ nodes)
    (found : closedWalk? next nodes [] (nodes.map .enter) = some walk) :
    Circle (Joins next) walk :=
  (closedWalk?_of_works (Works.start next nodes) closed).1 walk found

/-- If a search from all nodes of a graph finds nothing, no node leads back to itself. -/
theorem not_transGen_of_closedWalk?
    (closed : ∀ source, ∀ target ∈ next source, target ∈ nodes)
    (noneFound : closedWalk? next nodes [] (nodes.map .enter) = none) (node : α) :
    ¬ TransGen (Joins next) node node := by
  intro loop
  obtain ⟨before, _, isNext⟩ := TransGen.tail'_iff.1 loop
  have isKnown := closed before node isNext
  have grounded := (closedWalk?_of_works (Works.start next nodes) closed).2 noneFound
    (.enter node) (by simp [isKnown])
  exact grounded.not_transGen loop

end Search

end PassScheduler.Search
