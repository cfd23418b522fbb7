import Mathlib.Data.List.Permutation
import PassScheduler.Proofs.Graph.ClosedWalk
import PassScheduler.Proofs.Registry.Acceptance

/-!
Contract: a circle of analyses is found iff there is one, whatever the passes require.

The passes need not form an accepted configuration: transformations may be part of circles, and
anything may require anything. Only edges between analyses count.

Owns:
- the requirement relation between analyses, by number and by name;
- that none is found exactly if that relation has no circle, and that the names of what is found
  form a circle of it.

Does not own: which of several circles is found, or with what error it is reported.
-/

open Relation (TransGen)

namespace PassScheduler.Registry

open Search (Circle Joins)

variable {Instance : Type} {registry : Registry Instance}

/-- One analysis lists another as a prerequisite. -/
structure AnalysisRequires (registry : Registry Instance) (dependent prerequisite : PassId) :
    Prop where
  requires : registry.Requires dependent prerequisite
  dependent : registry.isAnalysis dependent
  prerequisite : registry.isAnalysis prerequisite

theorem exists_pass_of_isAnalysis {id : PassId} (isAnalysis : registry.isAnalysis id) :
    ∃ pass, registry.pass? id = some pass ∧ pass.descriptor.isAnalysis := by
  unfold Registry.isAnalysis descriptor? at isAnalysis
  cases found : registry.pass? id with
  | none => simp [found] at isAnalysis
  | some pass => exact ⟨pass, rfl, by simpa [found] using isAnalysis⟩

private theorem mem_analyses_of_joins (registry : Registry Instance) (source : PassId) :
    ∀ target ∈ (registry.requirements source).filter registry.isAnalysis,
      target ∈ registry.ids.filter registry.isAnalysis := by
  intro target isNext
  have isAnalysis := (List.mem_filter.1 isNext).2
  obtain ⟨pass, found, _⟩ := exists_pass_of_isAnalysis isAnalysis
  exact List.mem_filter.2 ⟨List.mem_range.2 (lt_size_of_pass? found), isAnalysis⟩

theorem circle_analysisCycle? {cycle : List PassId}
    (found : registry.analysisCycle? = some cycle) :
    Circle registry.AnalysisRequires cycle := by
  refine (Search.circle_of_closedWalk? (mem_analyses_of_joins registry) found).imp ?_
  -- An edge of the search is only known to end in an analysis; on a circle, so does the one before.
  intro before dependent prerequisite isBefore isEdge
  obtain ⟨requires, isAnalysis⟩ := List.mem_filter.1 isEdge
  exact ⟨requires, (List.mem_filter.1 isBefore).2, isAnalysis⟩

theorem analysisCycle?_eq_none_iff :
    registry.analysisCycle? = none ↔ ∀ id, ¬ TransGen registry.AnalysisRequires id id := by
  constructor
  · intro noneFound id loop
    refine Search.not_transGen_of_closedWalk? (mem_analyses_of_joins registry) noneFound id ?_
    refine TransGen.mono (fun dependent prerequisite isEdge => ?_) id id loop
    exact List.mem_filter.2 ⟨isEdge.requires, isEdge.prerequisite⟩
  · intro uncircled
    cases found : registry.analysisCycle? with
    | none => rfl
    | some cycle =>
        obtain ⟨id, _, loop⟩ := (circle_analysisCycle? found).exists_transGen
        exact absurd loop (uncircled id)

/-! ## By name -/

/-- An analysis of the first name lists one of the second name as a prerequisite. -/
def AnalysisRequiresNamed (passes : List (ResolvedPass Instance))
    (dependent prerequisite : String) : Prop :=
  ∃ pass ∈ passes, ∃ id ∈ pass.requirements, ∃ requirement, passes[id]? = some requirement ∧
    pass.descriptor.isAnalysis ∧ requirement.descriptor.isAnalysis ∧
      pass.descriptor.name = dependent ∧ requirement.descriptor.name = prerequisite

theorem AnalysisRequires.named {dependent prerequisite : PassId}
    (isEdge : registry.AnalysisRequires dependent prerequisite) :
    AnalysisRequiresNamed registry.passes (registry.name dependent)
      (registry.name prerequisite) := by
  obtain ⟨requires, dependentAnalysis, prerequisiteAnalysis⟩ := isEdge
  obtain ⟨pass, isPass, passAnalysis⟩ := exists_pass_of_isAnalysis dependentAnalysis
  obtain ⟨requirement, isRequirement, requirementAnalysis⟩ :=
    exists_pass_of_isAnalysis prerequisiteAnalysis
  have listed : prerequisite ∈ pass.requirements := by
    simpa [Requires, requirements, isPass] using requires
  exact ⟨pass, List.mem_of_getElem? isPass, prerequisite, listed, requirement, isRequirement,
    passAnalysis, requirementAnalysis, (name_of_pass? isPass).symm,
    (name_of_pass? isRequirement).symm⟩

/-- Where no two passes share a name, names tell analyses apart. -/
theorem eq_of_name_eq (names : (registry.passes.map fun pass => pass.descriptor.name).Nodup)
    {first second : PassId} (isFirst : registry.isAnalysis first)
    (isSecond : registry.isAnalysis second)
    (sameName : registry.name first = registry.name second) :
    first = second := by
  have nameAt : ∀ {id}, registry.isAnalysis id →
      (registry.passes.map fun pass => pass.descriptor.name)[id]? = some (registry.name id) := by
    intro id isAnalysis
    obtain ⟨pass, found, _⟩ := exists_pass_of_isAnalysis isAnalysis
    have isAt : registry.passes[id]? = some pass := found
    rw [List.getElem?_map, isAt, name_of_pass? found]
    rfl
  have inside := (List.getElem?_eq_some_iff.1 (nameAt isFirst)).1
  rw [← List.getElem?_inj inside names, nameAt isFirst, nameAt isSecond, sameName]

/-- None is found iff no analysis requires itself, be it through other analyses. What is found are
the names of a circle: two at least, the first and the last the same and all others different, and
each is the name of an analysis that requires the analysis of the next name. -/
theorem analysisCycle?_spec {passes : List (ResolvedPass Instance)}
    (names : (passes.map fun pass => pass.descriptor.name).Nodup) :
    ((ofPasses passes).analysisCycle? = none ↔
        ∀ id, ¬ TransGen (ofPasses passes).AnalysisRequires id id) ∧
      ∀ cycle, (ofPasses passes).analysisCycle? = some cycle →
        Circle (AnalysisRequiresNamed passes) (cycle.map (ofPasses passes).name) := by
  refine ⟨analysisCycle?_eq_none_iff, fun cycle found => ?_⟩
  have circle := circle_analysisCycle? found
  have areAnalyses : ∀ id ∈ cycle, (ofPasses passes).isAnalysis id := by
    intro id member
    obtain ⟨_, _, isEdge⟩ := circle.exists_source id member
    exact isEdge.prerequisite
  refine ⟨?_, ?_, by simpa using circle.long, ?_⟩
  · refine (List.isChain_map _).2 (circle.steps.imp fun _ _ isEdge => ?_)
    exact isEdge.named
  · rw [List.head?_map, List.getLast?_map, circle.closes]
  · rw [← List.map_dropLast]
    refine circle.once.map_on fun first isFirst second isSecond sameName => ?_
    exact eq_of_name_eq names (areAnalyses first (List.dropLast_subset _ isFirst))
      (areAnalyses second (List.dropLast_subset _ isSecond)) sameName

/-- A circle through a transformation does not count, and neither does the way to the circle. -/
theorem analysisCycle?_spec_looped :
    let passes : List (ResolvedPass Unit) := [
      ⟨⟨.analysis "entry", fun _ => ()⟩, [1, 2], []⟩,
      ⟨⟨.transformation "tidy", fun _ => ()⟩, [0], []⟩,
      ⟨⟨.analysis "alias", fun _ => ()⟩, [3], []⟩,
      ⟨⟨.analysis "escape", fun _ => ()⟩, [1, 2], []⟩]
    (passes.map fun pass => pass.descriptor.name).Nodup ∧
      (ofPasses passes).analysisCycle? = some [2, 3, 2] ∧
      Circle (AnalysisRequiresNamed passes) ["alias", "escape", "alias"] := by
  intro passes
  have names : (passes.map fun pass => pass.descriptor.name).Nodup := by decide
  have found : (ofPasses passes).analysisCycle? = some [2, 3, 2] := by cbv
  exact ⟨names, found, (analysisCycle?_spec names).2 _ found⟩

end PassScheduler.Registry
