import PassScheduler.Proofs.Registry.Configuration

/-!
Contract: a configuration does not depend on the order in which its passes were registered.

In another order every pass has another number. The counterpart of a pass is the pass of the same
registration, and whatever is said of passes by their numbers is so of their counterparts.

Owns:
- that passes can be registered in any order if they can in one, and be built if they can in one;
- counterparts, and that the lists of counterparts hold counterparts;
- that registries of passes in two orders agree on names and dependents, counterpart by counterpart.

Does not own: what a session does with its registry.
-/

open Relation (ReflTransGen TransGen reflTransGen_iff_eq_or_transGen)

namespace PassScheduler

variable {Instance : Type}

/-! ## Ways in two graphs -/

section Ways

variable {related : PassId → PassId → Prop} {edge otherEdge : PassId → PassId → Prop}
variable {source target otherSource : PassId}

/-- If edges can be followed from related nodes to related nodes, then so can ways. -/
theorem exists_transGen_related
    (step : ∀ {source target otherSource}, edge source target → related source otherSource →
      ∃ otherTarget, otherEdge otherSource otherTarget ∧ related target otherTarget)
    (way : TransGen edge source target) (isRelated : related source otherSource) :
    ∃ otherTarget, TransGen otherEdge otherSource otherTarget ∧ related target otherTarget := by
  induction way with
  | single isEdge =>
      obtain ⟨otherTarget, isOtherEdge, relatedTarget⟩ := step isEdge isRelated
      exact ⟨otherTarget, .single isOtherEdge, relatedTarget⟩
  | tail _ isEdge inductionHypothesis =>
      obtain ⟨between, otherWay, relatedBetween⟩ := inductionHypothesis
      obtain ⟨otherTarget, isOtherEdge, relatedTarget⟩ := step isEdge relatedBetween
      exact ⟨otherTarget, otherWay.tail isOtherEdge, relatedTarget⟩

theorem exists_reflTransGen_related
    (step : ∀ {source target otherSource}, edge source target → related source otherSource →
      ∃ otherTarget, otherEdge otherSource otherTarget ∧ related target otherTarget)
    (way : ReflTransGen edge source target) (isRelated : related source otherSource) :
    ∃ otherTarget, ReflTransGen otherEdge otherSource otherTarget ∧ related target otherTarget := by
  rcases reflTransGen_iff_eq_or_transGen.1 way with rfl | way
  · exact ⟨otherSource, .refl, isRelated⟩
  · obtain ⟨otherTarget, otherWay, relatedTarget⟩ := exists_transGen_related step way isRelated
    exact ⟨otherTarget, otherWay.to_reflTransGen, relatedTarget⟩

end Ways

/-! ## Registering in another order -/

/-- Nothing is wrong with a descriptor by itself. -/
structure Descriptor.Consistent (descriptor : Descriptor) : Prop where
  not_self : descriptor.name ∉ descriptor.requires
  requires_nodup : descriptor.requires.Nodup
  invalidates_nodup : descriptor.invalidates.Nodup

namespace Registrations

variable {registrations first second : Registrations Instance}

/-- A descriptor is refused beside others only for its name, or for what is wrong with itself. -/
theorem refusal?_eq_none_iff {descriptor : Descriptor} :
    registrations.refusal? descriptor = none ↔
      descriptor.name ∉ registrations.names ∧ descriptor.Consistent := by
  rw [← id?_eq_none_iff]
  unfold refusal?
  constructor
  · intro accepted
    split at accepted
    · cases accepted
    · split at accepted
      · cases accepted
      · split at accepted
        · cases accepted
        · rename_i isNew notSelf _ requires
          refine ⟨by simpa using isNew, notSelf, (firstRepeat?_eq_none_iff _).1 requires, ?_⟩
          exact (firstRepeat?_eq_none_iff _).1 (Option.map_eq_none_iff.1 accepted)
  · rintro ⟨isNew, consistent⟩
    simp [isNew, consistent.not_self, (firstRepeat?_eq_none_iff _).2 consistent.requires_nodup,
      (firstRepeat?_eq_none_iff _).2 consistent.invalidates_nodup]

/-- What can be registered one by one does not depend on the order. -/
theorem registered_iff :
    registrations.Registered ↔
      registrations.names.Nodup ∧
        ∀ registration ∈ registrations.accepted, registration.descriptor.Consistent := by
  constructor
  · intro registered
    refine ⟨registered.names_nodup, ?_⟩
    induction registered with
    | empty => simp [empty]
    | @register registrations _ descriptor create _ accepted inductionHypothesis =>
        have unrefused : registrations.refusal? descriptor = none := by
          unfold register at accepted
          cases refused : registrations.refusal? descriptor with
          | none => rfl
          | some error => simp [refused] at accepted
        rw [(register_eq_ok accepted).2]
        refine List.forall_mem_append.2 ⟨inductionHypothesis, ?_⟩
        simpa using (refusal?_eq_none_iff.1 unrefused).2
  · obtain ⟨accepted⟩ := registrations
    induction accepted using List.reverseRecOn with
    | nil => exact fun _ => .empty
    | append_singleton before registration inductionHypothesis =>
        rintro ⟨distinct, consistent⟩
        simp only [names, List.map_append, List.map_cons, List.map_nil] at distinct
        obtain ⟨beforeDistinct, _, isNew⟩ := List.nodup_append.1 distinct
        obtain ⟨beforeConsistent, lastConsistent⟩ := List.forall_mem_append.1 consistent
        have registered := inductionHypothesis ⟨beforeDistinct, beforeConsistent⟩
        refine registered.add registration (refusal?_eq_none_iff.2 ⟨?_, ?_⟩)
        · exact fun known => isNew _ known _ (List.mem_singleton_self _) rfl
        · exact lastConsistent registration (List.mem_singleton_self _)

theorem Registered.perm (registered : first.Registered)
    (perm : first.accepted.Perm second.accepted) :
    second.Registered := by
  obtain ⟨distinct, consistent⟩ := registered_iff.1 registered
  refine registered_iff.2 ⟨?_, fun registration member => ?_⟩
  · exact (perm.map _).nodup_iff.1 distinct
  · exact consistent registration (perm.mem_iff.2 member)

/-- The same passes, registered in two orders. -/
structure Reordered (first second : Registrations Instance) : Prop where
  registered : first.Registered
  perm : first.accepted.Perm second.accepted

theorem Reordered.symm (reordered : first.Reordered second) : second.Reordered first :=
  ⟨reordered.registered.perm reordered.perm, reordered.perm.symm⟩

/-! ## Counterparts -/

/-- Two places at which the same pass was registered. -/
def Counterpart (first second : Registrations Instance) (id other : PassId) : Prop :=
  ∃ registration, first.accepted[id]? = some registration ∧
    second.accepted[other]? = some registration

theorem Counterpart.symm {id other : PassId} (counterpart : first.Counterpart second id other) :
    second.Counterpart first other id := by
  obtain ⟨registration, isFirst, isSecond⟩ := counterpart
  exact ⟨registration, isSecond, isFirst⟩

theorem Counterpart.descriptor?_eq {id other : PassId}
    (counterpart : first.Counterpart second id other) :
    first.descriptor? id = second.descriptor? other := by
  obtain ⟨registration, isFirst, isSecond⟩ := counterpart
  rw [descriptor?, descriptor?, isFirst, isSecond]

namespace Reordered

variable {id another other otherId : PassId}

theorem exists_counterpart (reordered : first.Reordered second) {descriptor : Descriptor}
    (isPass : first.descriptor? id = some descriptor) :
    ∃ other, first.Counterpart second id other := by
  obtain ⟨registration, isFirst, _⟩ := Option.map_eq_some_iff.1 isPass
  have member := reordered.perm.mem_iff.1 (List.mem_of_getElem? isFirst)
  obtain ⟨other, isSecond⟩ := List.mem_iff_getElem?.1 member
  exact ⟨other, registration, isFirst, isSecond⟩

theorem counterpart_unique (reordered : first.Reordered second)
    (counterpart : first.Counterpart second id other)
    (isAlso : first.Counterpart second id otherId) :
    other = otherId := by
  obtain ⟨registration, isFirst, isSecond⟩ := counterpart
  obtain ⟨_, isSame, isThere⟩ := isAlso
  obtain rfl := Option.some.inj (isFirst.symm.trans isSame)
  have distinct : second.accepted.Nodup := reordered.symm.registered.names_nodup.of_map
  exact (List.getElem?_inj (List.getElem?_eq_some_iff.1 isSecond).1 distinct).1
    (isSecond.trans isThere.symm)

theorem counterpart_inj (reordered : first.Reordered second)
    (counterpart : first.Counterpart second id other)
    (isAlso : first.Counterpart second another otherId) :
    id = another ↔ other = otherId := by
  constructor
  · rintro rfl
    exact reordered.counterpart_unique counterpart isAlso
  · rintro rfl
    exact reordered.symm.counterpart_unique counterpart.symm isAlso.symm

/-- Passes of one name are counterparts. -/
theorem counterpart_of_name (reordered : first.Reordered second) {descriptor named : Descriptor}
    (isFirst : first.descriptor? id = some descriptor)
    (isSecond : second.descriptor? other = some named) (sameName : descriptor.name = named.name) :
    first.Counterpart second id other := by
  obtain ⟨place, counterpart⟩ := reordered.exists_counterpart isFirst
  have atPlace : second.id? descriptor.name = some place :=
    (id?_eq_some_iff reordered.symm.registered).2
      ⟨descriptor, counterpart.descriptor?_eq ▸ isFirst, rfl⟩
  have atOther : second.id? descriptor.name = some other :=
    (id?_eq_some_iff reordered.symm.registered).2 ⟨named, isSecond, sameName.symm⟩
  obtain rfl := Option.some.inj (atPlace.symm.trans atOther)
  exact counterpart

theorem listsAt (reordered : first.Reordered second) {relation : Relation} {place : Nat}
    (isListed : first.ListsAt relation id place another)
    (counterpart : first.Counterpart second id otherId) :
    ∃ other, second.ListsAt relation otherId place other ∧
      first.Counterpart second another other := by
  obtain ⟨descriptor, named, isPass, isNamed, atPlace⟩ := isListed
  obtain ⟨other, isCounterpart⟩ := reordered.exists_counterpart isNamed
  refine ⟨other, ⟨descriptor, named, ?_, ?_, atPlace⟩, isCounterpart⟩
  · exact counterpart.descriptor?_eq ▸ isPass
  · exact isCounterpart.descriptor?_eq ▸ isNamed

theorem lists (reordered : first.Reordered second) {relation : Relation}
    (isListed : first.Lists relation id another)
    (counterpart : first.Counterpart second id otherId) :
    ∃ other, second.Lists relation otherId other ∧ first.Counterpart second another other := by
  obtain ⟨place, atPlace⟩ := isListed
  obtain ⟨other, isThere, isCounterpart⟩ := reordered.listsAt atPlace counterpart
  exact ⟨other, ⟨place, isThere⟩, isCounterpart⟩

theorem isAnalysis (isAnalysis : first.IsAnalysis id)
    (counterpart : first.Counterpart second id other) :
    second.IsAnalysis other := by
  obtain ⟨descriptor, isPass, kind⟩ := isAnalysis
  exact ⟨descriptor, counterpart.descriptor?_eq ▸ isPass, kind⟩

/-! ## The conditions of a sound configuration -/

theorem named (reordered : first.Reordered second) (named : first.Named) : second.Named := by
  intro id descriptor isPass relation reference isListed
  obtain ⟨other, counterpart⟩ := reordered.symm.exists_counterpart isPass
  have isFirst : first.descriptor? other = some descriptor := counterpart.descriptor?_eq ▸ isPass
  have isKnown := named other descriptor isFirst relation reference isListed
  exact (reordered.perm.map _).mem_iff.1 isKnown

theorem uncircled (reordered : first.Reordered second) (uncircled : first.Uncircled) :
    second.Uncircled := by
  intro id loop
  obtain ⟨_, ⟨⟨place, descriptor, _, isPass, _⟩, _⟩, _⟩ := TransGen.head'_iff.1 loop
  obtain ⟨other, counterpart⟩ := reordered.symm.exists_counterpart isPass
  have step : ∀ {source target otherSource}, second.AnalysisRequires source target →
      second.Counterpart first source otherSource →
        ∃ otherTarget, first.AnalysisRequires otherSource otherTarget ∧
          second.Counterpart first target otherTarget := by
    rintro source target otherSource ⟨requires, isSource, isTarget⟩ isCounterpart
    obtain ⟨otherTarget, otherRequires, isOther⟩ := reordered.symm.lists requires isCounterpart
    exact ⟨otherTarget, ⟨otherRequires, isAnalysis isSource isCounterpart,
      isAnalysis isTarget isOther⟩, isOther⟩
  obtain ⟨back, otherLoop, isBack⟩ := exists_transGen_related step loop counterpart
  obtain rfl := reordered.symm.counterpart_unique counterpart isBack
  exact uncircled other otherLoop

theorem leveled (reordered : first.Reordered second) (leveled : first.Leveled) :
    second.Leveled := by
  intro dependent prerequisite requires descriptor requirement isDependent isPrerequisite
  obtain ⟨other, counterpart⟩ := reordered.symm.exists_counterpart isDependent
  obtain ⟨otherPrerequisite, otherRequires, isOther⟩ := reordered.symm.lists requires counterpart
  exact leveled other otherPrerequisite otherRequires descriptor requirement
    (counterpart.descriptor?_eq ▸ isDependent) (isOther.descriptor?_eq ▸ isPrerequisite)

theorem unconflicted (reordered : first.Reordered second) (unconflicted : first.Unconflicted) :
    second.Unconflicted := by
  rintro pass prerequisite runner ⟨place, laterPlace, later, target, inOrder, isListed, isLater,
    way, invalidates, isAnalysisOf, reaches⟩
  have isPass := isListed
  obtain ⟨descriptor, _, isPass, _⟩ := isPass
  obtain ⟨otherPass, counterpart⟩ := reordered.symm.exists_counterpart isPass
  obtain ⟨otherPrerequisite, otherListed, isOther⟩ := reordered.symm.listsAt isListed counterpart
  obtain ⟨otherLater, otherIsLater, isOtherLater⟩ := reordered.symm.listsAt isLater counterpart
  obtain ⟨otherRunner, otherWay, isOtherRunner⟩ :=
    exists_reflTransGen_related reordered.symm.lists way isOtherLater
  obtain ⟨otherTarget, otherInvalidates, isOtherTarget⟩ :=
    reordered.symm.lists invalidates isOtherRunner
  obtain ⟨last, otherReaches, isLast⟩ :=
    exists_reflTransGen_related reordered.symm.lists reaches isOther
  obtain rfl := reordered.symm.counterpart_unique isOtherTarget isLast
  exact unconflicted otherPass otherPrerequisite otherRunner ⟨place, laterPlace, otherLater,
    otherTarget, inOrder, otherListed, otherIsLater, otherWay, otherInvalidates,
    isAnalysis isAnalysisOf isOther, otherReaches⟩

/-- What can be built in one order can be built in any other. -/
theorem builds (reordered : first.Reordered second)
    (built : ∃ registry, first.build = .ok registry) :
    ∃ registry, second.build = .ok registry := by
  obtain ⟨_, built⟩ := built
  obtain ⟨named, uncircled, leveled, unconflicted⟩ := sound_of_build reordered.registered built
  cases result : second.build with
  | ok registry => exact ⟨registry, rfl⟩
  | error error =>
      have failsFirst := (tells_of_build reordered.symm.registered result).1
      have isNamed := reordered.named named
      have isUncircled := reordered.uncircled uncircled
      have isLeveled := reordered.leveled leveled
      have isUnconflicted := reordered.unconflicted unconflicted
      cases error <;> simp_all [FailsFirst]

end Reordered

end Registrations

/-! ## Built registries -/

namespace Registry

variable {registry other : Registry Instance} {first second : Registrations Instance}

namespace Resolves

variable {registrations : Registrations Instance}

theorem getElem?_accepted (resolves : registry.Resolves registrations) (id : PassId) :
    registrations.accepted[id]? = (registry.pass? id).map ResolvedPass.toRegistration := by
  rw [← Registrations.resolvePasses_toRegistration resolves.resolved, List.getElem?_map]
  rfl

theorem id?_eq (resolves : registry.Resolves registrations) (name : String) :
    registry.id? name = registrations.id? name := by
  rw [Registrations.id?, ← Registrations.resolvePasses_toRegistration resolves.resolved,
    List.findIdx?_map]
  rfl

end Resolves

/-- Registries of the same passes, registered in two orders. -/
structure Renumbered (first second : Registrations Instance) (registry other : Registry Instance) :
    Prop where
  reordered : first.Reordered second
  resolves : registry.Resolves first
  resolvesOther : other.Resolves second

namespace Renumbered

variable {id otherId target otherTarget : PassId}

theorem symm (renumbered : Renumbered first second registry other) :
    Renumbered second first other registry :=
  ⟨renumbered.reordered.symm, renumbered.resolvesOther, renumbered.resolves⟩

theorem exists_counterpart (renumbered : Renumbered first second registry other)
    (inside : id < registry.size) :
    ∃ otherId, first.Counterpart second id otherId := by
  obtain ⟨_, isPass, _⟩ := renumbered.resolves.exists_descriptor inside
  exact renumbered.reordered.exists_counterpart isPass

theorem descriptor?_eq (renumbered : Renumbered first second registry other)
    (counterpart : first.Counterpart second id otherId) :
    registry.descriptor? id = other.descriptor? otherId := by
  rw [← renumbered.resolves.descriptor?_eq, ← renumbered.resolvesOther.descriptor?_eq]
  exact counterpart.descriptor?_eq

theorem name_eq (renumbered : Renumbered first second registry other)
    (counterpart : first.Counterpart second id otherId) :
    registry.name id = other.name otherId := by
  rw [name, name, renumbered.descriptor?_eq counterpart]

theorem isAnalysis_eq (renumbered : Renumbered first second registry other)
    (counterpart : first.Counterpart second id otherId) :
    registry.isAnalysis id = other.isAnalysis otherId := by
  rw [isAnalysis, isAnalysis, renumbered.descriptor?_eq counterpart]

theorem pass? (renumbered : Renumbered first second registry other)
    (counterpart : first.Counterpart second id otherId) :
    ∃ pass otherPass, registry.pass? id = some pass ∧ other.pass? otherId = some otherPass ∧
      pass.toRegistration = otherPass.toRegistration := by
  obtain ⟨registration, isFirst, isSecond⟩ := counterpart
  rw [renumbered.resolves.getElem?_accepted] at isFirst
  rw [renumbered.resolvesOther.getElem?_accepted] at isSecond
  obtain ⟨pass, found, isSame⟩ := Option.map_eq_some_iff.1 isFirst
  obtain ⟨otherPass, foundOther, isAlso⟩ := Option.map_eq_some_iff.1 isSecond
  exact ⟨pass, otherPass, found, foundOther, isSame.trans isAlso.symm⟩

theorem lt_size (renumbered : Renumbered first second registry other)
    (counterpart : first.Counterpart second id otherId) :
    id < registry.size := by
  obtain ⟨_, _, found, _⟩ := renumbered.pass? counterpart
  exact lt_size_of_pass? found

/-- A name stands for counterparts, or for no pass in either order. -/
theorem id? (renumbered : Renumbered first second registry other) (name : String) :
    Option.Rel (first.Counterpart second) (registry.id? name) (other.id? name) := by
  rw [renumbered.resolves.id?_eq, renumbered.resolvesOther.id?_eq]
  have names : name ∈ first.names ↔ name ∈ second.names :=
    (renumbered.reordered.perm.map _).mem_iff
  cases found : first.id? name with
  | none =>
      rw [Registrations.id?_eq_none_iff, names, ← Registrations.id?_eq_none_iff] at found
      rw [found]
      exact .none
  | some id =>
      cases foundOther : second.id? name with
      | none =>
          rw [Registrations.id?_eq_none_iff, ← names, ← Registrations.id?_eq_none_iff] at foundOther
          cases found.symm.trans foundOther
      | some otherId =>
          obtain ⟨_, isPass, named⟩ :=
            (Registrations.id?_eq_some_iff renumbered.reordered.registered).1 found
          obtain ⟨_, isOther, namedOther⟩ :=
            (Registrations.id?_eq_some_iff renumbered.reordered.symm.registered).1 foundOther
          exact .some
            (renumbered.reordered.counterpart_of_name isPass isOther (named.trans namedOther.symm))

/-- Lists of numbers that stand for the same names hold counterparts. -/
theorem forall₂_counterpart (renumbered : Renumbered first second registry other)
    {references : List String} {ids otherIds : List PassId}
    (resolved : List.Forall₂ (fun reference id => first.id? reference = some id) references ids)
    (resolvedOther : List.Forall₂ (fun reference id => second.id? reference = some id) references
      otherIds) :
    List.Forall₂ (first.Counterpart second) ids otherIds := by
  induction resolved generalizing otherIds with
  | nil =>
      cases resolvedOther
      exact .nil
  | @cons reference id _ _ found _ inductionHypothesis =>
      cases resolvedOther with
      | cons foundOther resolvedRest =>
          have isSame := renumbered.id? reference
          rw [renumbered.resolves.id?_eq, renumbered.resolvesOther.id?_eq, found,
            foundOther] at isSame
          cases isSame with
          | some counterpart => exact .cons counterpart (inductionHypothesis resolvedRest)

theorem lists (renumbered : Renumbered first second registry other)
    (counterpart : first.Counterpart second id otherId) :
    List.Forall₂ (first.Counterpart second) (registry.requirements id)
        (other.requirements otherId) ∧
      List.Forall₂ (first.Counterpart second) (registry.invalidations id)
        (other.invalidations otherId) := by
  obtain ⟨pass, otherPass, found, foundOther, same⟩ := renumbered.pass? counterpart
  obtain ⟨requires, invalidates⟩ := renumbered.resolves.lists found
  obtain ⟨requiresOther, invalidatesOther⟩ := renumbered.resolvesOther.lists foundOther
  have sameDescriptor : pass.descriptor = otherPass.descriptor :=
    congrArg Registration.descriptor same
  rw [← sameDescriptor] at requiresOther invalidatesOther
  simp only [requirements, invalidations, found, foundOther, Option.map_some, Option.getD_some]
  exact ⟨renumbered.forall₂_counterpart requires requiresOther,
    renumbered.forall₂_counterpart invalidates invalidatesOther⟩

/-- What requires a pass, directly or through others, does so in the other order. -/
theorem mem_transitiveDependents (renumbered : Renumbered first second registry other)
    (counterpart : first.Counterpart second id otherId)
    (isTarget : first.Counterpart second target otherTarget)
    (isDependent : id ∈ registry.graph.transitiveDependents target) :
    otherId ∈ other.graph.transitiveDependents otherTarget := by
  have resolved : registry.Resolved := ⟨first, renumbered.resolves⟩
  have resolvedOther : other.Resolved := ⟨second, renumbered.resolvesOther⟩
  rw [resolved.mem_transitiveDependents, ← renumbered.resolves.requires_eq] at isDependent
  rw [resolvedOther.mem_transitiveDependents, ← renumbered.resolvesOther.requires_eq]
  obtain ⟨last, way, isLast⟩ :=
    exists_transGen_related renumbered.reordered.lists isDependent counterpart
  rwa [renumbered.reordered.counterpart_unique isTarget isLast]

/-- A pass goes stale with another exactly if it does so in the other order. -/
theorem mem_dependents_iff (renumbered : Renumbered first second registry other)
    (counterpart : first.Counterpart second id otherId)
    (isTarget : first.Counterpart second target otherTarget) :
    id ∈ target :: registry.graph.transitiveDependents target ↔
      otherId ∈ otherTarget :: other.graph.transitiveDependents otherTarget := by
  rw [List.mem_cons, List.mem_cons, renumbered.reordered.counterpart_inj counterpart isTarget]
  refine or_congr_right ⟨renumbered.mem_transitiveDependents counterpart isTarget, ?_⟩
  exact renumbered.symm.mem_transitiveDependents counterpart.symm isTarget.symm

end Renumbered

end Registry

end PassScheduler
