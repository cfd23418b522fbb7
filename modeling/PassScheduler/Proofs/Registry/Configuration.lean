import Mathlib.Data.List.Permutation
import PassScheduler.Proofs.Graph.ClosedWalk
import PassScheduler.Proofs.Registry.Acceptance

/-!
Contract: a registry is built from sound configurations, and from nothing else.

A configuration is judged by what was registered: the descriptors, with a pass known by its place
in the order of registration. Registered names are distinct, so a name in a list of a descriptor
refers to one pass at most, and once every name refers to one, the resolved numbers say the same
as the names.

Owns:
- the four conditions of a sound configuration;
- what the lists of a resolved pass say about the descriptors;
- that `build` succeeds iff all conditions hold, that an error is about the first one that does
  not, and that what it says is the case.

Does not own: which of several faults of one kind is reported.
-/

open Relation (ReflTransGen TransGen)

namespace PassScheduler

variable {Instance : Type}

/-- The names in one of the two lists of a descriptor. -/
def Descriptor.listed (descriptor : Descriptor) : Relation → List String
  | .requires => descriptor.requires
  | .invalidates => descriptor.invalidates

namespace Registrations

/-! ## Sound configurations -/

def descriptor? (registrations : Registrations Instance) (id : PassId) : Option Descriptor :=
  registrations.accepted[id]?.map Registration.descriptor

/-- At a place in a list of one pass there is the name of another. -/
def ListsAt (registrations : Registrations Instance) (relation : Relation) (pass : PassId)
    (place : Nat) (other : PassId) : Prop :=
  ∃ descriptor named, registrations.descriptor? pass = some descriptor ∧
    registrations.descriptor? other = some named ∧
    (descriptor.listed relation)[place]? = some named.name

def Lists (registrations : Registrations Instance) (relation : Relation)
    (pass other : PassId) : Prop :=
  ∃ place, registrations.ListsAt relation pass place other

abbrev Requires (registrations : Registrations Instance) : PassId → PassId → Prop :=
  registrations.Lists .requires

def IsAnalysis (registrations : Registrations Instance) (id : PassId) : Prop :=
  ∃ descriptor, registrations.descriptor? id = some descriptor ∧ descriptor.kind = .analysis

def AnalysisRequires (registrations : Registrations Instance) (dependent prerequisite : PassId) :
    Prop :=
  registrations.Requires dependent prerequisite ∧ registrations.IsAnalysis dependent ∧
    registrations.IsAnalysis prerequisite

/-- Every name in a list of a pass is that of a registered pass. -/
def Named (registrations : Registrations Instance) : Prop :=
  ∀ id descriptor, registrations.descriptor? id = some descriptor →
    ∀ relation, ∀ reference ∈ descriptor.listed relation, reference ∈ registrations.names

/-- No analysis requires itself through analyses only. -/
def Uncircled (registrations : Registrations Instance) : Prop :=
  ∀ id, ¬ TransGen registrations.AnalysisRequires id id

/-- No pass requires one of a higher level. -/
def Leveled (registrations : Registrations Instance) : Prop :=
  ∀ dependent prerequisite, registrations.Requires dependent prerequisite →
    ∀ descriptor requirement, registrations.descriptor? dependent = some descriptor →
      registrations.descriptor? prerequisite = some requirement →
        requirement.minLevel ≤ descriptor.minLevel

/-- A pass lists a prerequisite, and later another that draws in a runner. The earlier one is an
analysis, and the runner invalidates it or something that it requires, directly or through
others. -/
def Conflict (registrations : Registrations Instance) (pass prerequisite runner : PassId) : Prop :=
  ∃ place laterPlace later target, place < laterPlace ∧
    registrations.ListsAt .requires pass place prerequisite ∧
    registrations.ListsAt .requires pass laterPlace later ∧
    ReflTransGen registrations.Requires later runner ∧
    registrations.Lists .invalidates runner target ∧
    registrations.IsAnalysis prerequisite ∧
    ReflTransGen registrations.Requires prerequisite target

def Unconflicted (registrations : Registrations Instance) : Prop :=
  ∀ pass prerequisite runner, ¬ registrations.Conflict pass prerequisite runner

/-- An error is about the first condition that does not hold. -/
def FailsFirst (registrations : Registrations Instance) : ConfigError → Prop
  | .unknownPassReference .. => ¬ registrations.Named
  | .circularDependency .. => registrations.Named ∧ ¬ registrations.Uncircled
  | .gatedPrerequisite .. =>
      registrations.Named ∧ registrations.Uncircled ∧ ¬ registrations.Leveled
  | .conflictingPrerequisites .. =>
      registrations.Named ∧ registrations.Uncircled ∧ registrations.Leveled ∧
        ¬ registrations.Unconflicted
  | _ => False

/-- What an error of the check says of the registered passes. -/
inductive Tells (registrations : Registrations Instance) : ConfigError → Prop
  | unknown {id : PassId} {descriptor : Descriptor} {relation : Relation} {reference : String} :
      registrations.descriptor? id = some descriptor →
      reference ∈ descriptor.listed relation → reference ∉ registrations.names →
        Tells registrations (.unknownPassReference descriptor.name relation reference)
  | circle {walk : List PassId} {names : List String} :
      Search.Circle registrations.AnalysisRequires walk →
      List.Forall₂ (fun id name => (registrations.descriptor? id).map Descriptor.name = some name)
        walk names →
        Tells registrations (.circularDependency names)
  | gated {dependent prerequisite : PassId} {descriptor requirement : Descriptor} :
      registrations.Requires dependent prerequisite →
      registrations.descriptor? dependent = some descriptor →
      registrations.descriptor? prerequisite = some requirement →
      descriptor.minLevel < requirement.minLevel →
        Tells registrations (.gatedPrerequisite descriptor.name descriptor.minLevel
          requirement.name requirement.minLevel)
  | conflict {pass prerequisite runner : PassId}
      {descriptor requirement invalidator : Descriptor} :
      registrations.Conflict pass prerequisite runner →
      registrations.descriptor? pass = some descriptor →
      registrations.descriptor? prerequisite = some requirement →
      registrations.descriptor? runner = some invalidator →
        Tells registrations (.conflictingPrerequisites descriptor.name requirement.name
          invalidator.name)

/-! ## Names -/

section Names

variable {registrations : Registrations Instance}

/-- Distinct names are found where they were registered. -/
theorem id?_eq_some_iff (registered : registrations.Registered) {name : String} {id : PassId} :
    registrations.id? name = some id ↔
      ∃ descriptor, registrations.descriptor? id = some descriptor ∧ descriptor.name = name := by
  have nameAt : ∀ id, registrations.names[id]? =
      (registrations.descriptor? id).map Descriptor.name := by
    simp [names, descriptor?, Function.comp_def]
  have there : ∀ {id}, registrations.id? name = some id → registrations.names[id]? = some name := by
    intro id found
    obtain ⟨inside, isNamed, _⟩ := List.findIdx?_eq_some_iff_getElem.1 found
    simpa [names, inside] using isNamed
  rw [← Option.map_eq_some_iff, ← nameAt]
  constructor
  · exact there
  · intro isNamed
    cases found : registrations.id? name with
    | none => exact absurd (List.mem_of_getElem? isNamed) (id?_eq_none_iff.1 found)
    | some other =>
        have inside := (List.getElem?_eq_some_iff.1 (there found)).1
        have same := (there found).trans isNamed.symm
        rw [(List.getElem?_inj inside registered.names_nodup).1 same]

theorem resolveNames_eq_error {name : String} {relation : Relation} {references : List String}
    {error : ConfigError}
    (refused : registrations.resolveNames name relation references = .error error) :
    ∃ reference ∈ references, reference ∉ registrations.names ∧
      error = .unknownPassReference name relation reference := by
  induction references with
  | nil => cases refused
  | cons reference rest inductionHypothesis =>
      unfold resolveNames at refused
      cases found : registrations.id? reference with
      | none =>
          simp only [found, Except.error.injEq] at refused
          exact ⟨reference, by simp, id?_eq_none_iff.1 found, refused.symm⟩
      | some id =>
          cases remaining : registrations.resolveNames name relation rest with
          | ok others => simp [found, remaining, Except.map] at refused
          | error other =>
              simp only [found, remaining, Except.map, Except.error.injEq] at refused
              obtain ⟨unknown, mem, isUnknown, isError⟩ :=
                inductionHypothesis (remaining.trans (congrArg _ refused))
              exact ⟨unknown, by simp [mem], isUnknown, isError⟩

theorem resolvePass_eq_error {registration : Registration Instance} {error : ConfigError}
    (refused : registrations.resolvePass registration = .error error) :
    ∃ relation, ∃ reference ∈ registration.descriptor.listed relation,
      reference ∉ registrations.names ∧
        error = .unknownPassReference registration.descriptor.name relation reference := by
  unfold resolvePass at refused
  cases first : registrations.resolveNames registration.descriptor.name .requires
      registration.descriptor.requires with
  | error other =>
      simp only [first, Except.error.injEq] at refused
      exact ⟨.requires, resolveNames_eq_error (first.trans (congrArg _ refused))⟩
  | ok requirements =>
      cases second : registrations.resolveNames registration.descriptor.name .invalidates
          registration.descriptor.invalidates with
      | ok invalidations => simp [first, second, Except.map] at refused
      | error other =>
          simp only [first, second, Except.map, Except.error.injEq] at refused
          exact ⟨.invalidates, resolveNames_eq_error (second.trans (congrArg _ refused))⟩

theorem resolvePasses_eq_error {accepted : List (Registration Instance)} {error : ConfigError}
    (refused : registrations.resolvePasses accepted = .error error) :
    ∃ registration ∈ accepted, registrations.resolvePass registration = .error error := by
  induction accepted with
  | nil => cases refused
  | cons registration rest inductionHypothesis =>
      unfold resolvePasses at refused
      cases first : registrations.resolvePass registration with
      | error other =>
          simp only [first, Except.error.injEq] at refused
          exact ⟨registration, by simp, first.trans (congrArg _ refused)⟩
      | ok pass =>
          cases remaining : registrations.resolvePasses rest with
          | ok others => simp [first, remaining, Except.map] at refused
          | error other =>
              simp only [first, remaining, Except.map, Except.error.injEq] at refused
              obtain ⟨culprit, mem, isRefused⟩ :=
                inductionHypothesis (remaining.trans (congrArg _ refused))
              exact ⟨culprit, by simp [mem], isRefused⟩

theorem tells_unknown {error : ConfigError}
    (refused : registrations.resolvePasses registrations.accepted = .error error) :
    registrations.FailsFirst error ∧ registrations.Tells error := by
  obtain ⟨registration, mem, isRefused⟩ := resolvePasses_eq_error refused
  obtain ⟨relation, reference, isListed, unknown, rfl⟩ := resolvePass_eq_error isRefused
  obtain ⟨id, found⟩ := List.mem_iff_getElem?.1 mem
  have isPass : registrations.descriptor? id = some registration.descriptor := by
    simp [descriptor?, found]
  exact ⟨fun named => unknown (named id _ isPass relation reference isListed),
    .unknown isPass isListed unknown⟩

/-- At each place of a resolved list there is the number of what is named there. -/
theorem getElem?_resolved {references : List String} {ids : List PassId}
    (resolved : List.Forall₂ (fun reference id => registrations.id? reference = some id)
      references ids) (place : Nat) (id : PassId) :
    ids[place]? = some id ↔
      ∃ reference, references[place]? = some reference ∧ registrations.id? reference = some id := by
  induction resolved generalizing place with
  | nil => simp
  | cons found _ inductionHypothesis =>
      cases place with
      | zero => simp [found]
      | succ place => simpa using inductionHypothesis place

end Names

end Registrations

/-! ## Resolved passes -/

namespace Registry

def listed (registry : Registry Instance) : Relation → PassId → List PassId
  | .requires => registry.requirements
  | .invalidates => registry.invalidations

namespace Resolves

variable {registry : Registry Instance} {registrations : Registrations Instance}

theorem descriptor?_eq (resolves : registry.Resolves registrations) (id : PassId) :
    registrations.descriptor? id = registry.descriptor? id := by
  have same := Registrations.resolvePasses_toRegistration resolves.resolved
  simp [descriptor?, pass?, Registrations.descriptor?, ← same, Function.comp_def]

theorem listsAt_iff (resolves : registry.Resolves registrations) {relation : Relation}
    {pass other : PassId} {place : Nat} :
    registrations.ListsAt relation pass place other ↔
      (registry.listed relation pass)[place]? = some other := by
  unfold Registrations.ListsAt
  rw [resolves.descriptor?_eq pass, descriptor?]
  cases found : registry.pass? pass with
  | none => cases relation <;> simp [listed, requirements, invalidations, found]
  | some resolved =>
      have atPlace : (registry.listed relation pass)[place]? = some other ↔
          ∃ reference, (resolved.descriptor.listed relation)[place]? = some reference ∧
            registrations.id? reference = some other := by
        obtain ⟨requires, invalidates⟩ := resolves.lists found
        cases relation with
        | requires =>
            simpa [listed, requirements, found, Descriptor.listed] using
              Registrations.getElem?_resolved requires place other
        | invalidates =>
            simpa [listed, invalidations, found, Descriptor.listed] using
              Registrations.getElem?_resolved invalidates place other
      rw [atPlace]
      simp only [Registrations.id?_eq_some_iff resolves.registered]
      constructor
      · rintro ⟨_, named, ⟨⟩, isOther, isNamed⟩
        exact ⟨named.name, isNamed, named, isOther, rfl⟩
      · rintro ⟨_, isNamed, named, isOther, rfl⟩
        exact ⟨_, named, rfl, isOther, isNamed⟩

theorem lists_iff (resolves : registry.Resolves registrations) {relation : Relation}
    {pass other : PassId} :
    registrations.Lists relation pass other ↔ other ∈ registry.listed relation pass := by
  simp only [Registrations.Lists, resolves.listsAt_iff, List.mem_iff_getElem?]

theorem requires_eq (resolves : registry.Resolves registrations) :
    registrations.Requires = registry.Requires := by
  funext dependent prerequisite
  exact propext resolves.lists_iff

theorem isAnalysis_iff (resolves : registry.Resolves registrations) {id : PassId} :
    registrations.IsAnalysis id ↔ registry.isAnalysis id := by
  rw [Registrations.IsAnalysis, resolves.descriptor?_eq]
  cases found : registry.descriptor? id <;> simp [isAnalysis, found, Descriptor.isAnalysis]

theorem analysisRequires_iff (resolves : registry.Resolves registrations)
    {dependent prerequisite : PassId} :
    registrations.AnalysisRequires dependent prerequisite ↔
      registry.Requires dependent prerequisite ∧ registry.isAnalysis dependent ∧
        registry.isAnalysis prerequisite := by
  rw [Registrations.AnalysisRequires, resolves.requires_eq, resolves.isAnalysis_iff,
    resolves.isAnalysis_iff]

/-- Names that resolve are those of registered passes. -/
theorem named (resolves : registry.Resolves registrations) : registrations.Named := by
  have known : ∀ {references : List String} {ids : List PassId},
      List.Forall₂ (fun reference id => registrations.id? reference = some id) references ids →
        ∀ reference ∈ references, reference ∈ registrations.names := by
    intro references ids resolved
    induction resolved with
    | nil => simp
    | cons found _ inductionHypothesis =>
        refine List.forall_mem_cons.2 ⟨?_, inductionHypothesis⟩
        by_contra unknown
        simp [Registrations.id?_eq_none_iff.2 unknown] at found
  intro id descriptor isPass relation
  rw [resolves.descriptor?_eq, descriptor?] at isPass
  obtain ⟨pass, found, rfl⟩ := Option.map_eq_some_iff.1 isPass
  obtain ⟨requires, invalidates⟩ := resolves.lists found
  cases relation with
  | requires => exact known requires
  | invalidates => exact known invalidates

/-! ## The three checks of resolved passes -/

private theorem analyses_closed (resolves : registry.Resolves registrations) (source : PassId) :
    ∀ target ∈ (registry.requirements source).filter registry.isAnalysis,
      target ∈ registry.ids.filter registry.isAnalysis := by
  intro target mem
  obtain ⟨requires, isAnalysis⟩ := List.mem_filter.1 mem
  have inside := Resolved.requirement_lt ⟨registrations, resolves⟩ requires
  exact List.mem_filter.2 ⟨List.mem_range.2 inside, isAnalysis⟩

theorem uncircled_of_analysisCycle? (resolves : registry.Resolves registrations)
    (noneFound : registry.analysisCycle? = none) :
    registrations.Uncircled := by
  intro id loop
  refine Search.not_transGen_of_closedWalk? resolves.analyses_closed noneFound id ?_
  refine TransGen.mono (fun dependent prerequisite isEdge => ?_) id id loop
  obtain ⟨requires, _, isAnalysis⟩ := resolves.analysisRequires_iff.1 isEdge
  exact List.mem_filter.2 ⟨requires, isAnalysis⟩

theorem circle_of_analysisCycle? (resolves : registry.Resolves registrations)
    {walk : List PassId} (found : registry.analysisCycle? = some walk) :
    Search.Circle registrations.AnalysisRequires walk := by
  refine (Search.circle_of_closedWalk? resolves.analyses_closed found).imp ?_
  intro before dependent prerequisite isBefore isEdge
  exact resolves.analysisRequires_iff.2 ⟨(List.mem_filter.1 isEdge).1,
    (List.mem_filter.1 isBefore).2, (List.mem_filter.1 isEdge).2⟩

theorem tells_circle (resolves : registry.Resolves registrations) {walk : List PassId}
    (found : registry.analysisCycle? = some walk) :
    ¬ registrations.Uncircled ∧
      registrations.Tells (.circularDependency (walk.map registry.name)) := by
  have circle := resolves.circle_of_analysisCycle? found
  constructor
  · intro uncircled
    obtain ⟨id, _, loop⟩ := circle.exists_transGen
    exact uncircled id loop
  · refine .circle circle (List.forall₂_map_right_iff.2 (List.forall₂_same.2 fun id mem => ?_))
    obtain ⟨_, _, _, _, descriptor, isPass, _⟩ := circle.exists_source id mem
    have inRegistry := (resolves.descriptor?_eq id).symm.trans isPass
    simp [isPass, name, inRegistry]

theorem leveled_of_gatedRequirement? (resolves : registry.Resolves registrations)
    (noneFound : registry.passes.findSome? registry.gatedRequirement? = none) :
    registrations.Leveled := by
  intro dependent prerequisite requires descriptor requirement isDependent isPrerequisite
  rw [resolves.descriptor?_eq] at isDependent isPrerequisite
  obtain ⟨pass, found, rfl⟩ := Option.map_eq_some_iff.1 isDependent
  have isListed : prerequisite ∈ pass.requirements := by
    simpa [listed, requirements, found] using resolves.lists_iff.1 requires
  have ungated := List.findSome?_eq_none_iff.1 noneFound pass (List.mem_of_getElem? found)
  have notHigher := List.findSome?_eq_none_iff.1 ungated prerequisite isListed
  simpa [isPrerequisite] using notHigher

theorem tells_gated (resolves : registry.Resolves registrations) {error : ConfigError}
    (found : registry.passes.findSome? registry.gatedRequirement? = some error) :
    (∃ name level requirement requirementLevel,
        error = .gatedPrerequisite name level requirement requirementLevel) ∧
      ¬ registrations.Leveled ∧ registrations.Tells error := by
  obtain ⟨pass, mem, isGated⟩ := List.exists_of_findSome?_eq_some found
  obtain ⟨prerequisite, isListed, higher⟩ := List.exists_of_findSome?_eq_some isGated
  obtain ⟨dependent, isThere⟩ := List.mem_iff_getElem?.1 mem
  have isPass : registry.pass? dependent = some pass := isThere
  have requires : registrations.Requires dependent prerequisite :=
    resolves.lists_iff.2 (by simpa [listed, requirements, isPass] using isListed)
  have isDependent : registrations.descriptor? dependent = some pass.descriptor := by
    simp [resolves.descriptor?_eq, descriptor?, isPass]
  cases isPrerequisite : registry.descriptor? prerequisite with
  | none => simp [isPrerequisite] at higher
  | some requirement =>
      simp only [isPrerequisite, Option.ite_none_right_eq_some, Option.some.injEq] at higher
      obtain ⟨isHigher, rfl⟩ := higher
      rw [← resolves.descriptor?_eq] at isPrerequisite
      refine ⟨⟨_, _, _, _, rfl⟩, fun leveled => ?_,
        .gated requires isDependent isPrerequisite isHigher⟩
      have notHigher := leveled _ _ requires _ _ isDependent isPrerequisite
      exact absurd isHigher (by simpa using notHigher)

end Resolves

/-! ## Conflicts -/

variable {registry : Registry Instance} {registrations : Registrations Instance}

theorem staleAfter?_eq_some {runner id : PassId} {earlier : List PassId}
    (found : registry.staleAfter? runner earlier = some id) :
    id ∈ earlier ∧ registry.isAnalysis id ∧ id ∈ registry.stale runner := by
  obtain ⟨target, invalidates, isFirst⟩ := List.exists_of_findSome?_eq_some found
  have isHit := List.find?_some isFirst
  rw [Bool.and_eq_true, List.contains_iff_mem] at isHit
  exact ⟨List.mem_of_find?_eq_some isFirst, isHit.1,
    List.mem_flatMap.2 ⟨target, invalidates, isHit.2⟩⟩

theorem conflictAmong?_eq_some {earlier rest : List PassId} {id runner : PassId}
    (found : registry.conflictAmong? earlier rest = some (id, runner)) :
    ∃ before later after, rest = before ++ later :: after ∧
      runner ∈ registry.requiredPasses later ∧
      registry.staleAfter? runner (earlier ++ before) = some id := by
  induction rest generalizing earlier with
  | nil => cases found
  | cons first rest inductionHypothesis =>
      unfold conflictAmong? at found
      split at found
      · rename_i conflict isFirst
        obtain rfl := Option.some.inj found
        obtain ⟨other, required, isStale⟩ := List.exists_of_findSome?_eq_some isFirst
        obtain ⟨stale, isFound, same⟩ := Option.map_eq_some_iff.1 isStale
        obtain ⟨rfl, rfl⟩ := Prod.mk.inj same
        exact ⟨[], first, rest, rfl, required, by simpa using isFound⟩
      · obtain ⟨before, later, after, rfl, required, isStale⟩ := inductionHypothesis found
        exact ⟨first :: before, later, after, rfl, required, by simpa using isStale⟩

namespace Resolves

/-- A conflict, said of the resolved lists. -/
theorem conflict_iff (resolves : registry.Resolves registrations)
    {pass prerequisite runner : PassId} :
    registrations.Conflict pass prerequisite runner ↔
      ∃ before later after, registry.requirements pass = before ++ later :: after ∧
        prerequisite ∈ before ∧ registry.isAnalysis prerequisite ∧
        ReflTransGen registry.Requires later runner ∧ registry.Upsets runner prerequisite := by
  unfold Registrations.Conflict
  simp only [resolves.requires_eq, resolves.listsAt_iff, resolves.lists_iff,
    resolves.isAnalysis_iff]
  constructor
  · rintro ⟨place, laterPlace, later, target, inOrder, isListed, isLater, way, invalidates,
      isAnalysis, reaches⟩
    obtain ⟨inside, isLaterThere⟩ := List.getElem?_eq_some_iff.1 isLater
    have lists : registry.requirements pass = (registry.requirements pass).take laterPlace ++
        later :: (registry.requirements pass).drop (laterPlace + 1) := by
      rw [← isLaterThere]
      exact (List.take_append_drop laterPlace _).symm.trans
        (congrArg _ (List.drop_eq_getElem_cons inside))
    refine ⟨_, later, _, lists, ?_, isAnalysis, way, target, invalidates, reaches⟩
    have isThere := (List.getElem?_take_of_lt inOrder).trans isListed
    exact List.mem_of_getElem? isThere
  · rintro ⟨before, later, after, split, isListed, isAnalysis, way, target, invalidates, reaches⟩
    obtain ⟨place, inside, isThere⟩ := List.getElem_of_mem isListed
    refine ⟨place, before.length, later, target, inside, ?_, ?_, way, invalidates, isAnalysis,
      reaches⟩
    · rw [listed, split, List.getElem?_append_left inside, List.getElem?_eq_getElem inside,
        isThere]
    · rw [listed, split, List.getElem?_append_right (Nat.le_refl _)]
      simp

theorem exists_descriptor (resolves : registry.Resolves registrations) {id : PassId}
    (inside : id < registry.size) :
    ∃ descriptor, registrations.descriptor? id = some descriptor ∧
      descriptor.name = registry.name id := by
  have found : registry.pass? id = some registry.passes[id] := List.getElem?_eq_getElem inside
  exact ⟨_, by rw [resolves.descriptor?_eq, descriptor?, found]; rfl, (name_of_pass? found).symm⟩

/-- A conflict that is found is one. -/
theorem conflict_of_conflict? (resolves : registry.Resolves registrations) {id : PassId}
    {pass : ResolvedPass Instance} (isPass : registry.pass? id = some pass) {error : ConfigError}
    (found : registry.conflict? pass = some error) :
    ∃ prerequisite runner, registrations.Conflict id prerequisite runner ∧
      prerequisite < registry.size ∧ runner < registry.size ∧
      error = .conflictingPrerequisites pass.descriptor.name (registry.name prerequisite)
        (registry.name runner) := by
  have resolved : registry.Resolved := ⟨registrations, resolves⟩
  unfold conflict? at found
  split at found
  · cases found
  · rename_i first rest isSplit
    obtain ⟨⟨prerequisite, runner⟩, isFound, isError⟩ := Option.map_eq_some_iff.1 found
    obtain ⟨before, later, after, rfl, required, isStale⟩ := conflictAmong?_eq_some isFound
    obtain ⟨isEarlier, isAnalysis, stale⟩ := staleAfter?_eq_some isStale
    have lists : registry.requirements id = first :: before ++ later :: after := by
      simp [requirements, isPass, isSplit]
    have inside : ∀ other ∈ first :: before ++ later :: after, other < registry.size := by
      intro other mem
      rw [← lists] at mem
      exact resolved.requirement_lt mem
    have laterInside := inside later (by simp)
    have way := (resolved.mem_requiredPasses laterInside).1 required
    refine ⟨prerequisite, runner, ?_, inside prerequisite (List.mem_append_left _ isEarlier), ?_,
      isError.symm⟩
    · exact resolves.conflict_iff.2 ⟨first :: before, later, after, lists, isEarlier, isAnalysis,
        way, resolved.mem_stale.1 stale⟩
    · rcases way.cases_tail with rfl | ⟨_, _, requires⟩
      · exact laterInside
      · exact resolved.requirement_lt requires

theorem tells_conflict (resolves : registry.Resolves registrations) {error : ConfigError}
    (found : registry.passes.findSome? registry.conflict? = some error) :
    (∃ name prerequisite invalidator,
        error = .conflictingPrerequisites name prerequisite invalidator) ∧
      ¬ registrations.Unconflicted ∧ registrations.Tells error := by
  obtain ⟨pass, mem, isConflict⟩ := List.exists_of_findSome?_eq_some found
  obtain ⟨id, isThere⟩ := List.mem_iff_getElem?.1 mem
  have isPass : registry.pass? id = some pass := isThere
  obtain ⟨prerequisite, runner, conflict, prerequisiteInside, runnerInside, rfl⟩ :=
    resolves.conflict_of_conflict? isPass isConflict
  refine ⟨⟨_, _, _, rfl⟩, fun unconflicted => unconflicted _ _ _ conflict, ?_⟩
  obtain ⟨requirement, isRequirement, nameOfRequirement⟩ :=
    resolves.exists_descriptor prerequisiteInside
  obtain ⟨invalidator, isInvalidator, nameOfInvalidator⟩ :=
    resolves.exists_descriptor runnerInside
  have isDependent : registrations.descriptor? id = some pass.descriptor := by
    simp [resolves.descriptor?_eq, descriptor?, isPass]
  rw [← nameOfRequirement, ← nameOfInvalidator]
  exact .conflict conflict isDependent isRequirement isInvalidator

end Resolves

end Registry

/-! ## What is built -/

namespace Registrations

variable {registrations : Registrations Instance}

theorem sound_of_build (registered : registrations.Registered) {registry : Registry Instance}
    (built : registrations.build = .ok registry) :
    registrations.Named ∧ registrations.Uncircled ∧ registrations.Leveled ∧
      registrations.Unconflicted := by
  obtain ⟨resolves, faultless⟩ := Registry.resolves_of_build registered built
  unfold Registry.fault? at faultless
  split at faultless
  · cases faultless
  · rename_i noCircle
    split at faultless
    · cases faultless
    · rename_i noneGated
      refine ⟨resolves.named, resolves.uncircled_of_analysisCycle? noCircle,
        resolves.leveled_of_gatedRequirement? noneGated, ?_⟩
      intro pass prerequisite runner conflict
      obtain ⟨_, _, _, lists, isEarlier, isAnalysis, way, upsets⟩ :=
        resolves.conflict_iff.1 conflict
      have accepted : registry.Accepted := ⟨registrations, registered, built⟩
      exact accepted.not_upsets lists isEarlier isAnalysis way upsets

theorem tells_of_build (registered : registrations.Registered) {error : ConfigError}
    (refused : registrations.build = .error error) :
    registrations.FailsFirst error ∧ registrations.Tells error := by
  unfold build at refused
  cases resolved : registrations.resolvePasses registrations.accepted with
  | error other =>
      simp only [resolved, Except.error.injEq] at refused
      exact tells_unknown (resolved.trans (congrArg _ refused))
  | ok passes =>
      have resolves : (Registry.ofPasses passes).Resolves registrations :=
        ⟨registered, resolved, rfl⟩
      simp only [resolved] at refused
      split at refused
      · rename_i fault isFault
        obtain rfl := Except.error.inj refused
        unfold Registry.fault? at isFault
        split at isFault
        · rename_i walk isWalk
          obtain rfl := Option.some.inj isFault
          obtain ⟨circled, tells⟩ := resolves.tells_circle isWalk
          exact ⟨⟨resolves.named, circled⟩, tells⟩
        · rename_i noCircle
          have uncircled := resolves.uncircled_of_analysisCycle? noCircle
          split at isFault
          · rename_i isGated
            obtain rfl := Option.some.inj isFault
            obtain ⟨⟨_, _, _, _, rfl⟩, gated, tells⟩ := resolves.tells_gated isGated
            exact ⟨⟨resolves.named, uncircled, gated⟩, tells⟩
          · rename_i noneGated
            have leveled := resolves.leveled_of_gatedRequirement? noneGated
            obtain ⟨⟨_, _, _, rfl⟩, conflicted, tells⟩ := resolves.tells_conflict isFault
            exact ⟨⟨resolves.named, uncircled, leveled, conflicted⟩, tells⟩
      · cases refused

/-- A registry is built iff the configuration meets the four conditions. An error is about the
first one that it does not meet, and what it says of the passes is so. -/
theorem build_ok_iff_sound (registered : registrations.Registered) :
    ((∃ registry, registrations.build = .ok registry) ↔
        registrations.Named ∧ registrations.Uncircled ∧ registrations.Leveled ∧
          registrations.Unconflicted) ∧
      ∀ error, registrations.build = .error error →
        registrations.FailsFirst error ∧ registrations.Tells error := by
  refine ⟨⟨fun ⟨_, built⟩ => sound_of_build registered built, ?_⟩,
    fun _ => tells_of_build registered⟩
  rintro ⟨named, uncircled, leveled, unconflicted⟩
  cases result : registrations.build with
  | ok registry => exact ⟨registry, rfl⟩
  | error error =>
      have failsFirst := (tells_of_build registered result).1
      cases error <;> simp_all [FailsFirst]

/-- An analysis, a transformation that makes it stale, and a pass that requires both in some
order. -/
def conflicting (requires : List String) : Registrations Unit where
  accepted := [⟨.analysis "flow", fun _ => ()⟩,
    ⟨(Descriptor.transformation "fold").invalidating "flow", fun _ => ()⟩,
    ⟨{ Descriptor.transformation "report" with requires }, fun _ => ()⟩]

theorem build_ok_iff_sound_conflicting :
    (conflicting ["fold", "flow"]).Unconflicted ∧
      (conflicting ["flow", "fold"]).build =
        .error (.conflictingPrerequisites "report" "flow" "fold") ∧
      (conflicting ["flow", "fold"]).Leveled ∧
      ¬ (conflicting ["flow", "fold"]).Unconflicted := by
  have before : Registered (Registrations.mk ((conflicting []).accepted.take 2)) :=
    (Registered.empty.add ((conflicting []).accepted[0]) rfl).add ((conflicting []).accepted[1]) rfl
  have registered : ∀ requires, (Registrations.mk ((conflicting []).accepted.take 2)).refusal?
      { Descriptor.transformation "report" with requires } = none →
        (conflicting requires).Registered :=
    fun requires accepted => before.add ⟨_, fun _ => ()⟩ accepted
  have refused : (conflicting ["flow", "fold"]).build =
      .error (.conflictingPrerequisites "report" "flow" "fold") := by
    cbv
  have built : ∃ registry, (conflicting ["fold", "flow"]).build = .ok registry :=
    ⟨_, by cbv⟩
  obtain ⟨_, _, _, unconflicted⟩ := (build_ok_iff_sound (registered _ rfl)).1.1 built
  obtain ⟨_, _, leveled, conflicted⟩ := ((build_ok_iff_sound (registered _ rfl)).2 _ refused).1
  exact ⟨unconflicted, refused, leveled, conflicted⟩

end Registrations

end PassScheduler
