import Mathlib.Data.List.Forall2
import PassScheduler.Pass.Registry
import PassScheduler.Proofs.Graph.Reachability

/-!
Contract: what is known of a registry because it was built from registered passes.

Owns:
- which registrations and which registries there are at all;
- that all numbers in a registry of resolved passes are numbers of its passes, and that names tell
  passes apart;
- the requirement relation, and the required passes and the dependents as its closures;
- which passes a run makes stale, and that nothing drawn in by a later prerequisite makes an
  earlier analysis of the same list stale.

Does not own: circles of analyses, gated prerequisites, or the order of required passes.
-/

open Relation (ReflTransGen TransGen reflTransGen_iff_eq_or_transGen transGen_swap)

namespace PassScheduler

variable {Instance : Type}

namespace Registrations

/-- Registrations that came about by registering passes one by one. -/
inductive Registered : Registrations Instance → Prop where
  | empty : Registered .empty
  | register {registrations extended : Registrations Instance} (descriptor : Descriptor)
      (create : Context → Instance) (registered : Registered registrations)
      (accepted : registrations.register descriptor create = .ok extended) :
      Registered extended

def names (registrations : Registrations Instance) : List String :=
  registrations.accepted.map fun registration => registration.descriptor.name

theorem id?_eq_none_iff {registrations : Registrations Instance} {name : String} :
    registrations.id? name = none ↔ name ∉ registrations.names := by
  simp [id?, names, List.findIdx?_eq_none_iff]

/-- What a successful registration says: the name was new, and the pass stands at the end. -/
theorem register_eq_ok {registrations extended : Registrations Instance}
    {descriptor : Descriptor} {create : Context → Instance}
    (accepted : registrations.register descriptor create = .ok extended) :
    descriptor.name ∉ registrations.names ∧
      extended.accepted = registrations.accepted ++ [⟨descriptor, create⟩] := by
  unfold register at accepted
  cases refused : registrations.refusal? descriptor with
  | some error => simp [refused] at accepted
  | none =>
      simp only [refused, Except.ok.injEq] at accepted
      refine ⟨?_, by rw [← accepted]⟩
      rw [← id?_eq_none_iff]
      unfold refusal? at refused
      cases found : registrations.id? descriptor.name with
      | none => rfl
      | some id => simp [found] at refused

theorem Registered.names_nodup {registrations : Registrations Instance}
    (registered : registrations.Registered) :
    registrations.names.Nodup := by
  induction registered with
  | empty => exact List.nodup_nil
  | register descriptor create _ accepted inductionHypothesis =>
      obtain ⟨fresh, extended⟩ := register_eq_ok accepted
      rw [names, extended, List.map_append, List.map_singleton]
      refine List.nodup_append.2 ⟨inductionHypothesis, by simp, ?_⟩
      rintro name known _ added rfl
      exact fresh (List.mem_singleton.1 added ▸ known)

/-- A registration that is not refused is added. -/
theorem Registered.add {registrations : Registrations Instance}
    (registered : registrations.Registered) (registration : Registration Instance)
    (accepted : registrations.refusal? registration.descriptor = none) :
    Registered ⟨registrations.accepted ++ [registration]⟩ := by
  refine .register registration.descriptor registration.create registered ?_
  rw [Registrations.register, accepted]

/-! ## Resolved names -/

theorem id?_lt {registrations : Registrations Instance} {name : String} {id : PassId}
    (found : registrations.id? name = some id) :
    id < registrations.size :=
  (List.findIdx?_eq_some_iff_getElem.1 found).1

theorem resolveNames_eq_ok {registrations : Registrations Instance} {name : String}
    {relation : Relation} {references : List String} {ids : List PassId}
    (resolved : registrations.resolveNames name relation references = .ok ids) :
    List.Forall₂ (fun reference id => registrations.id? reference = some id) references ids := by
  induction references generalizing ids with
  | nil =>
      cases resolved
      exact .nil
  | cons reference rest inductionHypothesis =>
      unfold resolveNames at resolved
      cases found : registrations.id? reference with
      | none => simp [found] at resolved
      | some id =>
          cases remaining : registrations.resolveNames name relation rest with
          | error error => simp [found, remaining, Except.map] at resolved
          | ok others =>
              simp only [found, remaining, Except.map, Except.ok.injEq] at resolved
              subst resolved
              exact .cons found (inductionHypothesis remaining)

theorem resolvePass_eq_ok {registrations : Registrations Instance}
    {registration : Registration Instance} {pass : ResolvedPass Instance}
    (resolved : registrations.resolvePass registration = .ok pass) :
    pass.toRegistration = registration ∧
      List.Forall₂ (fun reference id => registrations.id? reference = some id)
        registration.descriptor.requires pass.requirements ∧
      List.Forall₂ (fun reference id => registrations.id? reference = some id)
        registration.descriptor.invalidates pass.invalidations := by
  unfold resolvePass at resolved
  cases first : registrations.resolveNames registration.descriptor.name .requires
      registration.descriptor.requires with
  | error error => simp [first] at resolved
  | ok requirements =>
      cases second : registrations.resolveNames registration.descriptor.name .invalidates
          registration.descriptor.invalidates with
      | error error => simp [first, second, Except.map] at resolved
      | ok invalidations =>
          simp only [first, second, Except.map, Except.ok.injEq] at resolved
          subst resolved
          exact ⟨rfl, resolveNames_eq_ok first, resolveNames_eq_ok second⟩

theorem resolvePasses_eq_ok {registrations : Registrations Instance}
    {accepted : List (Registration Instance)} {passes : List (ResolvedPass Instance)}
    (resolved : registrations.resolvePasses accepted = .ok passes) :
    List.Forall₂ (fun registration pass => registrations.resolvePass registration = .ok pass)
      accepted passes := by
  induction accepted generalizing passes with
  | nil =>
      cases resolved
      exact .nil
  | cons registration rest inductionHypothesis =>
      unfold resolvePasses at resolved
      cases first : registrations.resolvePass registration with
      | error error => simp [first] at resolved
      | ok pass =>
          cases remaining : registrations.resolvePasses rest with
          | error error => simp [first, remaining, Except.map] at resolved
          | ok others =>
              simp only [first, remaining, Except.map, Except.ok.injEq] at resolved
              subst resolved
              exact .cons first (inductionHypothesis remaining)

/-- Resolving names changes nothing of what was registered. -/
theorem resolvePasses_toRegistration {registrations : Registrations Instance}
    {accepted : List (Registration Instance)} {passes : List (ResolvedPass Instance)}
    (resolved : registrations.resolvePasses accepted = .ok passes) :
    passes.map ResolvedPass.toRegistration = accepted := by
  have each : List.Forall₂ (fun registration pass => registration = pass.toRegistration)
      accepted passes :=
    (resolvePasses_eq_ok resolved).imp fun _ _ passResolved =>
      (resolvePass_eq_ok passResolved).1.symm
  rw [← List.forall₂_map_right_iff, List.forall₂_eq_eq_eq] at each
  exact each.symm

end Registrations

namespace Registry

/-- A registry that some registered passes were built into. -/
def Accepted (registry : Registry Instance) : Prop :=
  ∃ registrations : Registrations Instance,
    registrations.Registered ∧ registrations.build = .ok registry

/-- One pass lists another as a prerequisite. -/
def Requires (registry : Registry Instance) (dependent prerequisite : PassId) : Prop :=
  prerequisite ∈ registry.requirements dependent

/-- The passes that a run makes stale: what the pass lists, each with its dependents. -/
def stale (registry : Registry Instance) (runner : PassId) : List PassId :=
  (registry.invalidations runner).flatMap fun target =>
    target :: registry.graph.transitiveDependents target

/-- A run reaches a pass if the runner lists it or something that it requires, directly or
through others. -/
def Upsets (registry : Registry Instance) (runner id : PassId) : Prop :=
  ∃ target ∈ registry.invalidations runner, ReflTransGen registry.Requires id target

theorem lt_size_of_pass? {registry : Registry Instance} {id : PassId}
    {pass : ResolvedPass Instance} (found : registry.pass? id = some pass) :
    id < registry.size :=
  (List.getElem?_eq_some_iff.1 found).1

theorem name_of_pass? {registry : Registry Instance} {id : PassId} {pass : ResolvedPass Instance}
    (found : registry.pass? id = some pass) :
    registry.name id = pass.descriptor.name := by
  simp [name, descriptor?, found]

theorem isAnalysis_of_pass? {registry : Registry Instance} {id : PassId}
    {pass : ResolvedPass Instance} (found : registry.pass? id = some pass) :
    registry.isAnalysis id ↔ pass.descriptor.kind = .analysis := by
  simp [isAnalysis, descriptor?, found, Descriptor.isAnalysis]

/-- A registry of the registered passes with their names resolved, with a fault or without. -/
structure Resolves (registry : Registry Instance) (registrations : Registrations Instance) :
    Prop where
  registered : registrations.Registered
  resolved : registrations.resolvePasses registrations.accepted = .ok registry.passes
  eq_ofPasses : registry = .ofPasses registry.passes

def Resolved (registry : Registry Instance) : Prop :=
  ∃ registrations : Registrations Instance, registry.Resolves registrations

private theorem exists_left_of_forall₂ {α β : Type} {related : α → β → Prop} {left : List α}
    {right : List β} (all : List.Forall₂ related left right) {element : β}
    (member : element ∈ right) :
    ∃ other ∈ left, related other element := by
  induction all with
  | nil => cases member
  | @cons first second _ _ firstRelated _ inductionHypothesis =>
      rcases List.mem_cons.1 member with rfl | member
      · exact ⟨first, by simp, firstRelated⟩
      · obtain ⟨other, isLeft, isRelated⟩ := inductionHypothesis member
        exact ⟨other, by simp [isLeft], isRelated⟩

variable {registry : Registry Instance}

/-- The numbers in the lists of a pass are those of the names in the lists of its descriptor. -/
theorem Resolves.lists {registrations : Registrations Instance}
    (resolves : registry.Resolves registrations) {id : PassId} {pass : ResolvedPass Instance}
    (found : registry.pass? id = some pass) :
    List.Forall₂ (fun reference id => registrations.id? reference = some id)
        pass.descriptor.requires pass.requirements ∧
      List.Forall₂ (fun reference id => registrations.id? reference = some id)
        pass.descriptor.invalidates pass.invalidations := by
  have each := Registrations.resolvePasses_eq_ok resolves.resolved
  obtain ⟨registration, _, passResolved⟩ := exists_left_of_forall₂ each
    (List.mem_of_getElem? found)
  obtain ⟨rfl, lists⟩ := Registrations.resolvePass_eq_ok passResolved
  exact lists

namespace Resolved

/-- Every number in a list of a pass is the number of a pass. -/
private theorem resolved_lt (resolved : registry.Resolved) {id : PassId}
    {pass : ResolvedPass Instance} (found : registry.pass? id = some pass) :
    (∀ other ∈ pass.requirements, other < registry.size) ∧
      ∀ other ∈ pass.invalidations, other < registry.size := by
  obtain ⟨registrations, resolves⟩ := resolved
  have sameSize : registrations.size = registry.size :=
    (Registrations.resolvePasses_eq_ok resolves.resolved).length_eq
  obtain ⟨requirements, invalidations⟩ := resolves.lists found
  constructor
  · intro other member
    obtain ⟨reference, _, isNamed⟩ := exists_left_of_forall₂ requirements member
    exact sameSize ▸ Registrations.id?_lt isNamed
  · intro other member
    obtain ⟨reference, _, isNamed⟩ := exists_left_of_forall₂ invalidations member
    exact sameSize ▸ Registrations.id?_lt isNamed

theorem requirement_lt (resolved : registry.Resolved) {dependent prerequisite : PassId}
    (requires : registry.Requires dependent prerequisite) :
    prerequisite < registry.size := by
  unfold Requires requirements at requires
  cases found : registry.pass? dependent with
  | none => simp [found] at requires
  | some pass =>
      rw [found] at requires
      exact (resolved.resolved_lt found).1 prerequisite requires

/-- Names tell the passes apart. -/
theorem name_injective (resolved : registry.Resolved) {first second : PassId}
    (firstInside : first < registry.size) (secondInside : second < registry.size)
    (sameName : registry.name first = registry.name second) :
    first = second := by
  obtain ⟨registrations, registered, resolved, _⟩ := resolved
  have names : registry.passes.map (fun pass => pass.descriptor.name) = registrations.names := by
    rw [Registrations.names, ← Registrations.resolvePasses_toRegistration resolved, List.map_map]
    rfl
  have distinct : (registry.passes.map fun pass => pass.descriptor.name).Nodup :=
    names ▸ registered.names_nodup
  have nameAt : ∀ id : PassId, id < registry.size →
      (registry.passes.map fun pass => pass.descriptor.name)[id]? = some (registry.name id) := by
    intro id inside
    have inPasses : id < registry.passes.length := inside
    simp [name, descriptor?, pass?, List.getElem?_eq_getElem inPasses]
  have inNames : first < (registry.passes.map fun pass => pass.descriptor.name).length := by
    rw [List.length_map]
    exact firstInside
  rw [← List.getElem?_inj inNames distinct, nameAt first firstInside, nameAt second secondInside,
    sameName]

/-- The graph holds the requirement relation backwards. -/
theorem mem_dependents (resolved : registry.Resolved) {prerequisite dependent : PassId} :
    dependent ∈ registry.graph.dependents prerequisite ↔
      registry.Requires dependent prerequisite := by
  have ⟨_, _, _, equal⟩ := resolved
  have graph : registry.graph = (ofPasses registry.passes).graph := congrArg Registry.graph equal
  rw [graph]
  unfold ofPasses
  rw [RequirementGraph.mem_dependents_ofEdges]
  simp only [List.mem_flatMap, List.mem_map, Prod.exists, Prod.mk.injEq,
    List.mk_mem_zipIdx_iff_getElem?]
  constructor
  · rintro ⟨_, pass, _, found, _, member, rfl, rfl⟩
    simpa [Requires, requirements, pass?, found] using member
  · intro requires
    apply And.intro (resolved.requirement_lt requires)
    unfold Requires requirements pass? at requires
    cases found : registry.passes[dependent]? with
    | none => simp [found] at requires
    | some pass =>
        exact ⟨pass, dependent, found, prerequisite, by simpa [found] using requires, rfl, rfl⟩

/-- The dependents of a pass are what requires it, directly or through others. -/
theorem mem_transitiveDependents (resolved : registry.Resolved) {id dependent : PassId} :
    dependent ∈ registry.graph.transitiveDependents id ↔
      TransGen registry.Requires dependent id := by
  have backwards : (fun source target => target ∈ registry.graph.dependents source) =
      Function.swap registry.Requires := by
    funext source target
    exact propext resolved.mem_dependents
  rw [RequirementGraph.mem_transitiveDependents, backwards]
  exact transGen_swap

/-- What a run makes stale is what it reaches. -/
theorem mem_stale (resolved : registry.Resolved) {runner id : PassId} :
    id ∈ registry.stale runner ↔ registry.Upsets runner id := by
  simp only [stale, Upsets, List.mem_flatMap, List.mem_cons, resolved.mem_transitiveDependents,
    reflTransGen_iff_eq_or_transGen, eq_comm]

/-- The required passes of a pass are what it requires, directly or through others, and the pass
itself. -/
theorem mem_requiredPasses (resolved : registry.Resolved) {id prerequisite : PassId}
    (inside : id < registry.size) :
    prerequisite ∈ registry.requiredPasses id ↔
      ReflTransGen registry.Requires id prerequisite := by
  have closed : ∀ source, ∀ target ∈ registry.requirements source, target ∈ registry.ids :=
    fun _ _ requires => List.mem_range.2 (resolved.requirement_lt requires)
  rw [requiredPasses, Search.mem_reachable _ _ _ _ closed]
  constructor
  · rintro ⟨start, isStart, _, way⟩
    rw [List.mem_singleton] at isStart
    exact isStart ▸ way
  · intro way
    exact ⟨id, by simp, List.mem_range.2 inside, way⟩

end Resolved

/-- Registered passes whose names resolve are built if there is no fault among them. -/
theorem build_of_resolved {registrations : Registrations Instance}
    {passes : List (ResolvedPass Instance)}
    (resolved : registrations.resolvePasses registrations.accepted = .ok passes)
    (faultless : (Registry.ofPasses passes).fault? = none) :
    registrations.build = .ok (.ofPasses passes) := by
  simp only [Registrations.build, resolved, faultless]

/-- What was built holds the registered passes, resolved, and has no fault. -/
theorem resolves_of_build {registrations : Registrations Instance}
    (registered : registrations.Registered) (built : registrations.build = .ok registry) :
    registry.Resolves registrations ∧ registry.fault? = none := by
  unfold Registrations.build at built
  cases resolved : registrations.resolvePasses registrations.accepted with
  | error error => simp [resolved] at built
  | ok passes =>
      cases faulty : (Registry.ofPasses passes).fault? with
      | some error => simp [resolved, faulty] at built
      | none =>
          simp only [resolved, faulty, Except.ok.injEq] at built
          subst built
          exact ⟨⟨registered, resolved, rfl⟩, faulty⟩

namespace Accepted

theorem resolved (accepted : registry.Accepted) : registry.Resolved := by
  obtain ⟨registrations, registered, built⟩ := accepted
  exact ⟨registrations, (resolves_of_build registered built).1⟩

theorem fault?_eq_none (accepted : registry.Accepted) : registry.fault? = none := by
  obtain ⟨_, registered, built⟩ := accepted
  exact (resolves_of_build registered built).2

/-! ## No conflict among prerequisites -/

private theorem staleAfter?_eq_none {runner : PassId} {earlier : List PassId}
    (harmless : registry.staleAfter? runner earlier = none) {id : PassId} (isEarlier : id ∈ earlier)
    (isAnalysis : registry.isAnalysis id) :
    id ∉ registry.stale runner := by
  intro member
  obtain ⟨target, invalidates, isStale⟩ := List.mem_flatMap.1 member
  have none := List.findSome?_eq_none_iff.1 harmless target invalidates
  have spared := List.find?_eq_none.1 none id isEarlier
  simp [isAnalysis, List.mem_cons.1 isStale] at spared

private theorem conflictAmong?_eq_none {earlier rest : List PassId}
    (harmless : registry.conflictAmong? earlier rest = none) :
    ∀ before later after, rest = before ++ later :: after →
      ∀ runner ∈ registry.requiredPasses later,
        registry.staleAfter? runner (earlier ++ before) = none := by
  induction rest generalizing earlier with
  | nil => simp
  | cons first rest inductionHypothesis =>
      unfold conflictAmong? at harmless
      split at harmless
      · cases harmless
      · rename_i firstHarmless
        intro before later after split runner required
        cases before with
        | nil =>
            obtain ⟨rfl, _⟩ := List.cons.inj split
            simpa using List.findSome?_eq_none_iff.1 firstHarmless runner required
        | cons head before =>
            obtain ⟨rfl, restSplit⟩ := List.cons.inj split
            simpa using inductionHypothesis harmless before later after restSplit runner required

private theorem conflict?_eq_none (accepted : registry.Accepted) {pass : ResolvedPass Instance}
    (member : pass ∈ registry.passes) :
    registry.conflict? pass = none := by
  have faultless := accepted.fault?_eq_none
  unfold fault? at faultless
  split at faultless
  · cases faultless
  · split at faultless
    · cases faultless
    · exact List.findSome?_eq_none_iff.1 faultless pass member

/-- Nothing that a later prerequisite of a pass requires, directly or through others, makes an
analysis stale that the pass lists earlier. -/
theorem not_upsets (accepted : registry.Accepted) {id earlier later runner : PassId}
    {before after : List PassId} (listed : registry.requirements id = before ++ later :: after)
    (isEarlier : earlier ∈ before) (isAnalysis : registry.isAnalysis earlier)
    (required : ReflTransGen registry.Requires later runner) :
    ¬ registry.Upsets runner earlier := by
  have requiresLater : registry.Requires id later := by simp [Requires, listed]
  have laterInside := accepted.resolved.requirement_lt requiresLater
  cases found : registry.pass? id with
  | none => simp [requirements, found] at listed
  | some pass =>
      have harmless := accepted.conflict?_eq_none (List.mem_of_getElem? found)
      simp only [requirements, found, Option.map_some, Option.getD_some] at listed
      cases before with
      | nil => cases isEarlier
      | cons first before =>
          simp only [conflict?, listed, List.cons_append, Option.map_eq_none_iff] at harmless
          have spared := conflictAmong?_eq_none harmless before later after rfl runner
            ((accepted.resolved.mem_requiredPasses laterInside).2 required)
          rw [← accepted.resolved.mem_stale]
          exact staleAfter?_eq_none spared (by simpa using isEarlier) isAnalysis

end Accepted

end Registry

end PassScheduler
