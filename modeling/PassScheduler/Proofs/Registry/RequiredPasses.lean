import Mathlib.Data.List.Permutation
import PassScheduler.Proofs.Graph.Visiting
import PassScheduler.Proofs.Registry.Acceptance

/-!
Contract: the required passes of a pass, and the dependents of a pass, are one relation.

The required passes are found along the prerequisites, by a recursion with a set of visited passes;
the dependents are found backwards, along the edges of the graph. Passes may require one another in
circles, as long as a transformation takes part.

Owns:
- the required passes as what the recursion lists, and in which order they stand;
- that a pass depends on another iff the other is among its required passes.

Does not own: which registries are accepted.
-/

open Relation (ReflTransGen TransGen reflTransGen_iff_eq_or_transGen)

namespace PassScheduler.Registry

open Search (Visits)

variable {Instance : Type} {registry : Registry Instance}

/-- A list of everything that a pass draws in, in which each pass can be worked off after its
prerequisites. -/
structure Unfolds (registry : Registry Instance) (id : PassId) (order : List PassId) : Prop where
  once : order.Nodup
  closure : ∀ other, other ∈ order ↔ ReflTransGen registry.Requires id other
  last : order.getLast? = some id
  /-- Where passes require one another in circles, no order puts all prerequisites first. -/
  prerequisites_first : (∀ other ∈ order, ¬ TransGen registry.Requires other other) →
    ∀ before dependent after, order = before ++ dependent :: after →
      ∀ prerequisite ∈ registry.requirements dependent, prerequisite ∈ before

namespace Resolved

/-- The recursion comes to an end, and its only outcome are the required passes. -/
theorem visits_iff_eq_requiredPasses (resolved : registry.Resolved) {id : PassId}
    (inside : id < registry.size) (listed : List PassId) :
    Visits registry.requirements [] [id] listed ↔ listed = registry.requiredPasses id := by
  have closed : ∀ source, ∀ target ∈ registry.requirements source, target ∈ registry.ids :=
    fun _ _ requires => List.mem_range.2 (resolved.requirement_lt requires)
  have visits : Visits registry.requirements [] [id] (registry.requiredPasses id) := by
    refine Search.visits_reachable closed ?_ ?_
    · simpa [ids] using inside
    · simp
  constructor
  · intro again
    exact again.unique visits
  · rintro rfl
    exact visits

theorem getLast?_requiredPasses (registry : Registry Instance) {id : PassId}
    (inside : id < registry.size) :
    (registry.requiredPasses id).getLast? = some id := by
  have isFresh : id ∈ registry.ids := List.mem_range.2 inside
  rw [requiredPasses, Search.reachable_cons_of_mem isFresh, Search.reachable_nil]
  simp

theorem unfolds_requiredPasses (resolved : registry.Resolved) {id : PassId}
    (inside : id < registry.size) :
    registry.Unfolds id (registry.requiredPasses id) where
  once := Search.nodup_reachable _ _ _
  closure _ := resolved.mem_requiredPasses inside
  last := getLast?_requiredPasses registry inside
  prerequisites_first := by
    intro acyclic before dependent after split prerequisite isNext
    have visits := (resolved.visits_iff_eq_requiredPasses inside _).2 rfl
    rcases visits.ordered split isNext with isVisited | isBefore | wayBack
    · cases isVisited
    · exact isBefore
    · have isListed : dependent ∈ registry.requiredPasses id := by simp [split]
      exact absurd (.head' isNext wayBack) (acyclic dependent isListed)

theorem mem_transitiveDependents_iff_mem_requiredPasses (resolved : registry.Resolved)
    {prerequisite dependent : PassId} (inside : dependent < registry.size)
    (distinct : prerequisite ≠ dependent) :
    dependent ∈ registry.graph.transitiveDependents prerequisite ↔
      prerequisite ∈ registry.requiredPasses dependent := by
  rw [resolved.mem_transitiveDependents, resolved.mem_requiredPasses inside,
    reflTransGen_iff_eq_or_transGen]
  simp [distinct]

end Resolved

/-- In an accepted registry, the recursion along the prerequisites of a pass ends with the required
passes: what the pass reaches, each once, the pass itself last, and prerequisites first where the
order can be had. A pass is reached in this way from exactly those that the graph finds as its
dependents. -/
theorem Accepted.requiredPasses_spec (accepted : registry.Accepted) :
    (∀ id < registry.size,
      (∀ listed, Visits registry.requirements [] [id] listed ↔
        listed = registry.requiredPasses id) ∧
      registry.Unfolds id (registry.requiredPasses id)) ∧
    ∀ prerequisite < registry.size, ∀ dependent < registry.size, prerequisite ≠ dependent →
      (dependent ∈ registry.graph.transitiveDependents prerequisite ↔
        prerequisite ∈ registry.requiredPasses dependent) := by
  have resolved := accepted.resolved
  refine ⟨fun id inside => ⟨?_, ?_⟩, fun prerequisite _ dependent inside distinct => ?_⟩
  · exact resolved.visits_iff_eq_requiredPasses inside
  · exact resolved.unfolds_requiredPasses inside
  · exact resolved.mem_transitiveDependents_iff_mem_requiredPasses inside distinct

/-- A transformation and an analysis that require each other, beside a part without a circle. -/
def entwined : List (ResolvedPass Unit) :=
  [⟨⟨.analysis "flow", fun _ => ()⟩, [], []⟩,
    ⟨⟨((Descriptor.transformation "split").requiring "flow").requiring "join", fun _ => ()⟩,
      [0, 2], []⟩,
    ⟨⟨(Descriptor.analysis "join").requiring "split", fun _ => ()⟩, [1], []⟩,
    ⟨⟨(Descriptor.analysis "alias").requiring "flow", fun _ => ()⟩, [0], []⟩,
    ⟨⟨((Descriptor.transformation "prune").requiring "alias").requiring "flow", fun _ => ()⟩,
      [3, 0], []⟩]

theorem accepted_entwined : (ofPasses entwined).Accepted := by
  let registrations : Registrations Unit := ⟨entwined.map ResolvedPass.toRegistration⟩
  have faultless : (ofPasses entwined).fault? = none := by cbv
  have registered : registrations.Registered :=
    ((((Registrations.Registered.empty.add registrations.accepted[0] rfl).add
      registrations.accepted[1] rfl).add registrations.accepted[2] rfl).add
      registrations.accepted[3] rfl).add registrations.accepted[4] rfl
  exact ⟨registrations, registered, build_of_resolved rfl faultless⟩

/-- The circle is listed once from either of its passes, and each of the two depends on the other;
`prune` comes after everything that it requires. -/
theorem requiredPasses_spec_entwined :
    let registry := ofPasses entwined
    registry.Accepted ∧
      registry.requiredPasses 1 = [0, 2, 1] ∧ registry.requiredPasses 2 = [0, 1, 2] ∧
      registry.requiredPasses 4 = [0, 3, 4] ∧ registry.graph.transitiveDependents 0 = [1, 2, 3, 4] ∧
      registry.Unfolds 1 [0, 2, 1] ∧ Visits registry.requirements [] [4] [0, 3, 4] ∧
      (2 ∈ registry.graph.transitiveDependents 1 ↔ 1 ∈ registry.requiredPasses 2) := by
  intro registry
  have first : registry.requiredPasses 1 = [0, 2, 1] := by cbv
  have second : registry.requiredPasses 2 = [0, 1, 2] := by cbv
  have fourth : registry.requiredPasses 4 = [0, 3, 4] := by cbv
  have dependents : registry.graph.transitiveDependents 0 = [1, 2, 3, 4] := by cbv
  obtain ⟨listings, dual⟩ := accepted_entwined.requiredPasses_spec
  have unfolds := (listings 1 (by decide)).2
  rw [first] at unfolds
  exact ⟨accepted_entwined, first, second, fourth, dependents, unfolds,
    ((listings 4 (by decide)).1 _).2 fourth.symm, dual 1 (by decide) 2 (by decide) (by decide)⟩

end PassScheduler.Registry
