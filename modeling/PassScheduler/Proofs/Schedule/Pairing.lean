import PassScheduler.Proofs.Registry.Reordering
import PassScheduler.Proofs.Schedule.Course

/-!
Contract: sessions over the same passes in two orders, counterpart by counterpart.

Sessions are paired while counterparts have the same state and the same instance. A run of
counterparts keeps them so, and records the same, except that the dependents of a pass go stale in
the order of their numbers.

Owns:
- matching traces, in which the invalidations that one run records for one target may be reordered
  and nothing else;
- paired sessions, and that a run of counterparts and what is done once it is over keep them paired;
- the invalidations that paired sessions record, target by target.

Does not own: what is demanded of paired sessions.
-/

open Relation (ReflTransGen)

namespace PassScheduler

/-! ## Matching traces -/

namespace Registrations

variable {Instance : Type} (registrations : Registrations Instance)

/-- One pass lists the name of another as a prerequisite. -/
def RequiresNamed (dependent prerequisite : String) : Prop :=
  ∃ registration ∈ registrations.accepted, registration.descriptor.name = dependent ∧
    prerequisite ∈ registration.descriptor.requires

/-- The invalidation of a target, or of what requires it, directly or through others. -/
def Spoils (target : String) (event : Event) : Prop :=
  event.action = .invalidated ∧ ReflTransGen registrations.RequiresNamed event.pass target

/-- The invalidations that one run records, a group for each of its targets, and the same with every
group in some other order. -/
inductive Regrouped : List String → List Event → List Event → Prop where
  | nil : Regrouped [] [] []
  | cons {target : String} {targets : List String}
      {group otherGroup events otherEvents : List Event} (reordered : group.Perm otherGroup)
      (spoils : ∀ event ∈ group, registrations.Spoils target event)
      (rest : Regrouped targets events otherEvents) :
      Regrouped (target :: targets) (group ++ events) (otherGroup ++ otherEvents)

/-- Traces that differ at most in the order of the invalidations that one run records for one
target. -/
inductive Matching : List Event → List Event → Prop where
  | nil : Matching [] []
  | spared {events others : List Event} {pass : String} {action : Action}
      (before : Matching events others) (isSpared : action = .cached ∨ action = .skipped) :
      Matching (events ++ [⟨pass, action⟩]) (others ++ [⟨pass, action⟩])
  | ran {events others told otherTold : List Event} {registration : Registration Instance}
      (before : Matching events others) (isPass : registration ∈ registrations.accepted)
      (changed : Bool)
      (regrouped : Regrouped registrations registration.descriptor.invalidates told otherTold) :
      Matching (events ++ ⟨registration.descriptor.name, .ran changed⟩ :: told)
        (others ++ ⟨registration.descriptor.name, .ran changed⟩ :: otherTold)

variable {registrations}

theorem Regrouped.invalidated {targets : List String} {told otherTold : List Event}
    (regrouped : registrations.Regrouped targets told otherTold) :
    (∀ event ∈ told, event.action = .invalidated) ∧
      ∀ event ∈ otherTold, event.action = .invalidated := by
  induction regrouped with
  | nil => simp
  | cons reordered spoils _ inductionHypothesis =>
      obtain ⟨rest, otherRest⟩ := inductionHypothesis
      refine ⟨List.forall_mem_append.2 ⟨fun event member => (spoils event member).1, rest⟩,
        List.forall_mem_append.2 ⟨fun event member => ?_, otherRest⟩⟩
      exact (spoils event (reordered.mem_iff.2 member)).1

/-- Matching traces tell of the same runs in the same order. -/
theorem Matching.executed {trace other : Trace}
    (matching : registrations.Matching trace.toList other.toList) :
    trace.executed = other.executed := by
  have noRun : ∀ told : List Event, (∀ event ∈ told, event.action = .invalidated) →
      told.filter (fun event => event.action.isRun) = [] := by
    intro told invalidated
    refine List.filter_eq_nil_iff.2 fun event member => ?_
    simp [invalidated event member, Action.isRun]
  unfold Trace.executed
  congr 1
  generalize trace.toList = events at matching
  generalize other.toList = others at matching
  induction matching with
  | nil => rfl
  | spared _ _ inductionHypothesis =>
      rw [List.filter_append, List.filter_append, inductionHypothesis]
  | ran _ _ _ regrouped inductionHypothesis =>
      obtain ⟨told, otherTold⟩ := regrouped.invalidated
      rw [List.filter_append, List.filter_append, inductionHypothesis, List.filter_cons,
        List.filter_cons, noRun _ told, noRun _ otherTold]

end Registrations

namespace Registry

variable {Instance : Type} {registry other : Registry Instance}
variable {first second : Registrations Instance}

/-- A required pass has its name in the descriptor. -/
theorem Resolves.requiresNamed (resolves : registry.Resolves first)
    {dependent prerequisite : PassId} (requires : registry.Requires dependent prerequisite) :
    first.RequiresNamed (registry.name dependent) (registry.name prerequisite) := by
  have isListed : first.Requires dependent prerequisite := resolves.lists_iff.2 requires
  obtain ⟨place, descriptor, named, isDependent, isPrerequisite, atPlace⟩ := isListed
  obtain ⟨registration, isThere, rfl⟩ := Option.map_eq_some_iff.1 isDependent
  rw [resolves.descriptor?_eq] at isDependent isPrerequisite
  refine ⟨registration, List.mem_of_getElem? isThere, ?_, ?_⟩
  · simp [name, isDependent]
  · simpa [name, isPrerequisite, Descriptor.listed] using List.mem_of_getElem? atPlace

theorem Resolves.names_invalidations (resolves : registry.Resolves first) {id : PassId}
    {pass : ResolvedPass Instance} (found : registry.pass? id = some pass) :
    (registry.invalidations id).map registry.name = pass.descriptor.invalidates := by
  have names : List.Forall₂ (fun reference id => reference = registry.name id)
      pass.descriptor.invalidates pass.invalidations := by
    refine (resolves.lists found).2.imp fun reference id isNamed => ?_
    obtain ⟨descriptor, isPass, rfl⟩ :=
      (Registrations.id?_eq_some_iff resolves.registered).1 isNamed
    rw [resolves.descriptor?_eq] at isPass
    simp [name, isPass]
  rw [← List.forall₂_map_right_iff, List.forall₂_eq_eq_eq] at names
  simpa [invalidations, found] using names.symm

end Registry

namespace Session

variable {Instance World : Type}

/-! ## Invalidations -/

/-- Invalidations record every pass that was valid, once. -/
theorem trace_foldl_invalidate (registry : Registry Instance) (session : Session Instance World)
    (ids : List PassId) :
    ∃ spoiled : List PassId, spoiled.Nodup ∧
      (∀ id, id ∈ spoiled ↔ id ∈ ids ∧ session.isValid id) ∧
      (ids.foldl (invalidate registry) session).trace.toList =
        session.trace.toList ++ spoiled.map fun id => ⟨registry.name id, .invalidated⟩ := by
  induction ids generalizing session with
  | nil => exact ⟨[], List.nodup_nil, by simp, by simp⟩
  | cons id ids inductionHypothesis =>
      obtain ⟨spoiled, distinct, members, recorded⟩ :=
        inductionHypothesis (session.invalidate registry id)
      have stillValid : ∀ other, (session.invalidate registry id).isValid other ↔
          session.isValid other ∧ other ≠ id := by
        intro other
        simpa using isValid_foldl_invalidate registry session [id] other
      by_cases valid : session.isValid id
      · have first : (session.invalidate registry id).trace.toList =
            session.trace.toList ++ [⟨registry.name id, .invalidated⟩] := by
          simp [invalidate, valid, record, notice, note]
        refine ⟨id :: spoiled, List.nodup_cons.2 ⟨?_, distinct⟩, fun other => ?_, ?_⟩
        · intro member
          exact ((stillValid id).1 ((members id).1 member).2).2 rfl
        · rw [List.mem_cons, members, stillValid, List.mem_cons]
          by_cases same : other = id
          · simp [same, valid]
          · simp [same]
        · rw [List.foldl_cons, recorded, first]
          simp
      · refine ⟨spoiled, distinct, fun other => ?_, ?_⟩
        · rw [members, stillValid, List.mem_cons]
          by_cases same : other = id
          · simp [same, valid]
          · simp [same]
        · rw [List.foldl_cons, recorded]
          simp [invalidate, valid]

/-! ## Paired sessions -/

/-- The session has a state and a seat for every pass of its registry, and for no others. -/
structure Seated (registry : Registry Instance) (session : Session Instance World) : Prop where
  fits : session.Fits registry
  instances : session.instances.length = registry.size

/-- Sessions over registries of the same passes, in which counterparts have the same state and the
same instance. -/
structure Paired (first second : Registrations Instance) (registry other : Registry Instance)
    (session otherSession : Session Instance World) : Prop where
  seated : session.Seated registry
  otherSeated : otherSession.Seated other
  level : session.level = otherSession.level
  world : session.world = otherSession.world
  state : ∀ {id otherId}, first.Counterpart second id otherId →
    session.validity.state id = otherSession.validity.state otherId
  binding : ∀ {id otherId}, first.Counterpart second id otherId →
    session.binding? id = otherSession.binding? otherId

namespace Paired

variable {registry other : Registry Instance} {first second : Registrations Instance}
variable {session otherSession after otherAfter : Session Instance World}
variable {id otherId target otherTarget : PassId}

theorem symm (paired : Paired first second registry other session otherSession) :
    Paired second first other registry otherSession session :=
  ⟨paired.otherSeated, paired.seated, paired.level.symm, paired.world.symm,
    fun counterpart => (paired.state counterpart.symm).symm,
    fun counterpart => (paired.binding counterpart.symm).symm⟩

/-- What is only recorded keeps sessions paired. -/
theorem of_same (paired : Paired first second registry other session otherSession)
    (same : after.level = session.level ∧ after.validity = session.validity ∧
      after.instances = session.instances ∧ after.world = session.world)
    (otherSame : otherAfter.level = otherSession.level ∧
      otherAfter.validity = otherSession.validity ∧
      otherAfter.instances = otherSession.instances ∧ otherAfter.world = otherSession.world) :
    Paired first second registry other after otherAfter := by
  obtain ⟨level, validity, instances, world⟩ := same
  obtain ⟨otherLevel, otherValidity, otherInstances, otherWorld⟩ := otherSame
  refine ⟨⟨?_, ?_⟩, ⟨?_, ?_⟩, ?_, ?_, fun counterpart => ?_, fun counterpart => ?_⟩
  · rw [Fits, validity]
    exact paired.seated.fits
  · rw [instances]
    exact paired.seated.instances
  · rw [Fits, otherValidity]
    exact paired.otherSeated.fits
  · rw [otherInstances]
    exact paired.otherSeated.instances
  · rw [level, otherLevel, paired.level]
  · rw [world, otherWorld, paired.world]
  · rw [validity, otherValidity, paired.state counterpart]
  · rw [binding?, binding?, instances, otherInstances]
    exact paired.binding counterpart

theorem isValid_eq (paired : Paired first second registry other session otherSession)
    (counterpart : first.Counterpart second id otherId) :
    session.isValid id = otherSession.isValid otherId := by
  rw [isValid, isValid, ValiditySet.isValid, ValiditySet.isValid, paired.state counterpart]

/-! ### Invalidations of paired sessions -/

theorem foldl_invalidate (paired : Paired first second registry other session otherSession)
    {ids otherIds : List PassId}
    (same : ∀ {id otherId}, first.Counterpart second id otherId → (id ∈ ids ↔ otherId ∈ otherIds)) :
    Paired first second registry other (ids.foldl (invalidate registry) session)
      (otherIds.foldl (invalidate other) otherSession) := by
  obtain ⟨level, instances, world⟩ := foldl_invalidate_frame registry session ids
  obtain ⟨otherLevel, otherInstances, otherWorld⟩ :=
    foldl_invalidate_frame other otherSession otherIds
  refine ⟨⟨?_, ?_⟩, ⟨?_, ?_⟩, ?_, ?_, fun counterpart => ?_, fun counterpart => ?_⟩
  · rw [Fits, length_foldl_invalidate]
    exact paired.seated.fits
  · rw [instances]
    exact paired.seated.instances
  · rw [Fits, length_foldl_invalidate]
    exact paired.otherSeated.fits
  · rw [otherInstances]
    exact paired.otherSeated.instances
  · rw [level, otherLevel, paired.level]
  · rw [world, otherWorld, paired.world]
  · simp only [state_foldl_invalidate, paired.isValid_eq counterpart, same counterpart,
      paired.state counterpart]
  · rw [binding?, binding?, instances, otherInstances]
    exact paired.binding counterpart

/-- Whatever goes stale with a target does so in the other order, under the same name. -/
theorem mem_spoiled (paired : Paired first second registry other session otherSession)
    (renumbered : Registry.Renumbered first second registry other)
    (isTarget : first.Counterpart second target otherTarget) {spoiled otherSpoiled : List PassId}
    (members : ∀ id, id ∈ spoiled ↔
      id ∈ target :: registry.graph.transitiveDependents target ∧ session.isValid id)
    (otherMembers : ∀ id, id ∈ otherSpoiled ↔
      id ∈ otherTarget :: other.graph.transitiveDependents otherTarget ∧ otherSession.isValid id)
    {name : String} (isSpoiled : name ∈ spoiled.map registry.name) :
    name ∈ otherSpoiled.map other.name := by
  obtain ⟨id, member, rfl⟩ := List.mem_map.1 isSpoiled
  obtain ⟨isDependent, valid⟩ := (members id).1 member
  have inside : id < registry.size := paired.seated.fits ▸ ValiditySet.lt_of_isValid valid
  obtain ⟨otherId, counterpart⟩ := renumbered.exists_counterpart inside
  refine List.mem_map.2 ⟨otherId, (otherMembers otherId).2 ⟨?_, ?_⟩, ?_⟩
  · exact (renumbered.mem_dependents_iff counterpart isTarget).1 isDependent
  · exact paired.isValid_eq counterpart ▸ valid
  · exact (renumbered.name_eq counterpart).symm

theorem nodup_names (resolved : registry.Resolved) (fits : session.Fits registry)
    {spoiled : List PassId} (distinct : spoiled.Nodup)
    (valid : ∀ id ∈ spoiled, session.isValid id) :
    (spoiled.map registry.name).Nodup := by
  have inside : ∀ id ∈ spoiled, id < registry.size :=
    fun id member => fits ▸ ValiditySet.lt_of_isValid (valid id member)
  refine List.Nodup.map_on (fun id member another isMember sameName => ?_) distinct
  exact resolved.name_injective (inside id member) (inside another isMember) sameName

/-- The invalidations for one target are the same up to their order. -/
theorem invalidateWithDependents
    (paired : Paired first second registry other session otherSession)
    (renumbered : Registry.Renumbered first second registry other)
    (isTarget : first.Counterpart second target otherTarget) :
    Paired first second registry other (session.invalidateWithDependents registry target)
        (otherSession.invalidateWithDependents other otherTarget) ∧
      ∃ group otherGroup, group.Perm otherGroup ∧
        (∀ event ∈ group, first.Spoils (registry.name target) event) ∧
        (session.invalidateWithDependents registry target).trace.toList =
          session.trace.toList ++ group ∧
        (otherSession.invalidateWithDependents other otherTarget).trace.toList =
          otherSession.trace.toList ++ otherGroup := by
  have resolved : registry.Resolved := ⟨first, renumbered.resolves⟩
  have otherResolved : other.Resolved := ⟨second, renumbered.resolvesOther⟩
  obtain ⟨spoiled, distinct, members, recorded⟩ := trace_foldl_invalidate registry session
    (target :: registry.graph.transitiveDependents target)
  obtain ⟨otherSpoiled, otherDistinct, otherMembers, otherRecorded⟩ :=
    trace_foldl_invalidate other otherSession
      (otherTarget :: other.graph.transitiveDependents otherTarget)
  have sameNames : (spoiled.map registry.name).Perm (otherSpoiled.map other.name) := by
    refine (List.perm_ext_iff_of_nodup ?_ ?_).2 fun name => ⟨?_, ?_⟩
    · exact nodup_names resolved paired.seated.fits distinct fun id member =>
        ((members id).1 member).2
    · exact nodup_names otherResolved paired.otherSeated.fits otherDistinct fun id member =>
        ((otherMembers id).1 member).2
    · exact paired.mem_spoiled renumbered isTarget members otherMembers
    · exact paired.symm.mem_spoiled renumbered.symm isTarget.symm otherMembers members
  have sameEvents := sameNames.map fun name => Event.mk name .invalidated
  rw [List.map_map, List.map_map] at sameEvents
  refine ⟨paired.foldl_invalidate fun counterpart =>
    renumbered.mem_dependents_iff counterpart isTarget, _, _, sameEvents, ?_, recorded,
    otherRecorded⟩
  intro event member
  obtain ⟨id, isSpoiled, rfl⟩ := List.mem_map.1 member
  refine ⟨rfl, ?_⟩
  have way : ReflTransGen registry.Requires id target := by
    rcases List.mem_cons.1 ((members id).1 isSpoiled).1 with rfl | isDependent
    · exact .refl
    · exact (resolved.mem_transitiveDependents.1 isDependent).to_reflTransGen
  exact way.lift registry.name fun _ _ requires => renumbered.resolves.requiresNamed requires

theorem foldl_invalidateWithDependents
    (paired : Paired first second registry other session otherSession)
    (renumbered : Registry.Renumbered first second registry other)
    {targets otherTargets : List PassId}
    (each : List.Forall₂ (first.Counterpart second) targets otherTargets) :
    Paired first second registry other
        (targets.foldl (Session.invalidateWithDependents registry) session)
        (otherTargets.foldl (Session.invalidateWithDependents other) otherSession) ∧
      ∃ told otherTold, first.Regrouped (targets.map registry.name) told otherTold ∧
        (targets.foldl (Session.invalidateWithDependents registry) session).trace.toList =
          session.trace.toList ++ told ∧
        (otherTargets.foldl (Session.invalidateWithDependents other) otherSession).trace.toList =
          otherSession.trace.toList ++ otherTold := by
  induction each generalizing session otherSession with
  | nil => exact ⟨paired, [], [], .nil, by simp, by simp⟩
  | cons isTarget _ inductionHypothesis =>
      obtain ⟨pairedNext, group, otherGroup, reordered, spoils, recorded, otherRecorded⟩ :=
        paired.invalidateWithDependents renumbered isTarget
      obtain ⟨pairedAfter, told, otherTold, regrouped, rest, otherRest⟩ :=
        inductionHypothesis pairedNext
      refine ⟨pairedAfter, _, _, .cons reordered spoils regrouped, ?_, ?_⟩
      · rw [List.foldl_cons, rest, recorded, List.append_assoc]
      · rw [List.foldl_cons, otherRest, otherRecorded, List.append_assoc]

theorem recordRun (paired : Paired first second registry other session otherSession)
    (renumbered : Registry.Renumbered first second registry other)
    (counterpart : first.Counterpart second id otherId) (kind : PassKind) :
    Paired first second registry other
      { session with validity := session.validity.recordRun id kind }
      { otherSession with validity := otherSession.validity.recordRun otherId kind } := by
  have inside : id < session.validity.states.length :=
    paired.seated.fits ▸ renumbered.lt_size counterpart
  have otherInside : otherId < otherSession.validity.states.length :=
    paired.otherSeated.fits ▸ renumbered.symm.lt_size counterpart.symm
  refine ⟨⟨?_, paired.seated.instances⟩, ⟨?_, paired.otherSeated.instances⟩, paired.level,
    paired.world, fun isAlso => ?_, paired.binding⟩
  · exact (ValiditySet.length_recordRun _ _ _).trans paired.seated.fits
  · exact (ValiditySet.length_recordRun _ _ _).trans paired.otherSeated.fits
  · simp only [ValiditySet.state_recordRun, inside, otherInside, and_true,
      renumbered.reordered.counterpart_inj counterpart isAlso, paired.state isAlso]

/-- What is done once a pass has run is the same up to the order of the invalidations for each
target. -/
theorem conclude (paired : Paired first second registry other session otherSession)
    (renumbered : Registry.Renumbered first second registry other)
    (counterpart : first.Counterpart second id otherId) (kind : PassKind) :
    Paired first second registry other (session.conclude registry id kind)
        (otherSession.conclude other otherId kind) ∧
      ∃ told otherTold,
        first.Regrouped ((registry.invalidations id).map registry.name) told otherTold ∧
        (session.conclude registry id kind).trace.toList = session.trace.toList ++ told ∧
        (otherSession.conclude other otherId kind).trace.toList =
          otherSession.trace.toList ++ otherTold := by
  obtain ⟨pairedBefore, told, otherTold, regrouped, recorded, otherRecorded⟩ :=
    paired.foldl_invalidateWithDependents renumbered (renumbered.lists counterpart).2
  rw [invalidations_foldl] at pairedBefore recorded
  rw [invalidations_foldl] at pairedBefore otherRecorded
  exact ⟨pairedBefore.recordRun renumbered counterpart kind, told, otherTold, regrouped, recorded,
    otherRecorded⟩

/-! ### Runs of paired sessions -/

theorem keep (paired : Paired first second registry other session otherSession)
    (renumbered : Registry.Renumbered first second registry other)
    (counterpart : first.Counterpart second id otherId) (binding : Binding Instance) :
    Paired first second registry other (session.keep id binding)
      (otherSession.keep otherId binding) := by
  have inside : id < session.instances.length :=
    paired.seated.instances ▸ renumbered.lt_size counterpart
  have otherInside : otherId < otherSession.instances.length :=
    paired.otherSeated.instances ▸ renumbered.symm.lt_size counterpart.symm
  refine ⟨⟨paired.seated.fits, ?_⟩, ⟨paired.otherSeated.fits, ?_⟩, paired.level, paired.world,
    paired.state, fun isAlso => ?_⟩
  · exact List.length_set.trans paired.seated.instances
  · exact List.length_set.trans paired.otherSeated.instances
  · simp only [binding?_keep, inside, otherInside, and_true,
      renumbered.reordered.counterpart_inj counterpart isAlso, paired.binding isAlso]

/-- Counterparts run by the same instance. -/
theorem obtain (paired : Paired first second registry other session otherSession)
    (renumbered : Registry.Renumbered first second registry other)
    (counterpart : first.Counterpart second id otherId) {pass otherPass : ResolvedPass Instance}
    (same : pass.toRegistration = otherPass.toRegistration) :
    (session.obtain id pass).1 = (otherSession.obtain otherId otherPass).1 ∧
      Paired first second registry other (session.obtain id pass).2
        (otherSession.obtain otherId otherPass).2 := by
  have sameBinding := paired.binding counterpart
  unfold Session.obtain
  rw [← sameBinding]
  cases session.binding? id with
  | some binding => exact ⟨rfl, paired⟩
  | none =>
      have sameContext : Context.mk pass.descriptor.name session.level =
          ⟨otherPass.descriptor.name, otherSession.level⟩ := by
        rw [same, paired.level]
      have sameCreate : pass.create = otherPass.create := congrArg Registration.create same
      rw [sameContext, sameCreate]
      refine ⟨rfl, ?_⟩
      have noted : Paired first second registry other
          (session.note (.created ⟨otherPass.descriptor.name, otherSession.level⟩))
          (otherSession.note (.created ⟨otherPass.descriptor.name, otherSession.level⟩)) :=
        paired.of_same ⟨rfl, rfl, rfl, rfl⟩ ⟨rfl, rfl, rfl, rfl⟩
      exact noted.keep renumbered counterpart _

variable [Pass Instance World]

theorem enter (paired : Paired first second registry other session otherSession)
    (renumbered : Registry.Renumbered first second registry other)
    (counterpart : first.Counterpart second id otherId) (binding : Binding Instance) :
    (session.enter id binding).1 = (otherSession.enter otherId binding).1 ∧
      Paired first second registry other (session.enter id binding).2
        (otherSession.enter otherId binding).2 := by
  unfold Session.enter
  rw [paired.world]
  generalize Pass.run binding.bound otherSession.world = ran
  obtain ⟨result, bound, world⟩ := ran
  have noted : Paired first second registry other
      (session.note (.entered binding.context)) (otherSession.note (.entered binding.context)) :=
    paired.of_same ⟨rfl, rfl, rfl, rfl⟩ ⟨rfl, rfl, rfl, rfl⟩
  have kept := noted.keep renumbered counterpart { binding with bound := bound }
  exact ⟨rfl, ⟨kept.seated.fits, kept.seated.instances⟩,
    ⟨kept.otherSeated.fits, kept.otherSeated.instances⟩, kept.level, rfl, kept.state, kept.binding⟩

theorem runPass (paired : Paired first second registry other session otherSession)
    (renumbered : Registry.Renumbered first second registry other)
    (counterpart : first.Counterpart second id otherId) {pass otherPass : ResolvedPass Instance}
    (same : pass.toRegistration = otherPass.toRegistration) :
    (session.runPass id pass).1 = (otherSession.runPass otherId otherPass).1 ∧
      Paired first second registry other (session.runPass id pass).2
        (otherSession.runPass otherId otherPass).2 := by
  obtain ⟨sameBinding, pairedBetween⟩ := paired.obtain renumbered counterpart same
  unfold Session.runPass
  generalize session.obtain id pass = obtained at sameBinding pairedBetween
  generalize otherSession.obtain otherId otherPass = otherObtained at sameBinding pairedBetween
  obtain ⟨binding, between⟩ := obtained
  obtain ⟨otherBinding, otherBetween⟩ := otherObtained
  obtain rfl : binding = otherBinding := sameBinding
  exact pairedBetween.enter renumbered counterpart binding

end Paired

end Session

end PassScheduler
