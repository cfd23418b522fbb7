import PassScheduler.Proofs.Schedule.Changes
import PassScheduler.Proofs.Schedule.Lockstep
import PassScheduler.Proofs.Schedule.Pairing

/-!
Contract: what is asked by name does not depend on the order in which passes were registered.

Owns:
- paired sessions with matching traces, and that every run of counterparts keeps them so;
- that requests by name are answered alike, whatever was asked by name before.

Does not own: requests that go by number or by the order of registration.
-/

namespace PassScheduler

namespace Session

variable {Instance World : Type}

/-! ## Demands of paired sessions -/

/-- Paired sessions whose traces match. -/
structure Twin (first second : Registrations Instance) (registry other : Registry Instance)
    (session otherSession : Session Instance World) : Prop where
  paired : Paired first second registry other session otherSession
  trace : first.Matching session.trace.toList otherSession.trace.toList

namespace Twin

variable {registry other : Registry Instance} {first second : Registrations Instance}
variable {session otherSession : Session Instance World}
variable {id otherId : PassId}

theorem recordCached (twin : Twin first second registry other session otherSession)
    (pass : String) :
    Twin first second registry other (session.recordCached pass)
      (otherSession.recordCached pass) where
  paired := twin.paired.of_same ⟨rfl, rfl, rfl, rfl⟩ ⟨rfl, rfl, rfl, rfl⟩
  trace := by
    simp only [Session.recordCached, record, Trace.toList_record]
    exact twin.trace.spared (.inl rfl)

theorem recordSkipped (twin : Twin first second registry other session otherSession)
    (descriptor : Descriptor) :
    Twin first second registry other (session.recordSkipped descriptor)
      (otherSession.recordSkipped descriptor) where
  paired := twin.paired.of_same ⟨rfl, rfl, rfl, rfl⟩ ⟨rfl, rfl, rfl, rfl⟩
  trace := by
    simp only [Session.recordSkipped, record, Trace.toList_record]
    exact twin.trace.spared (.inr rfl)

theorem note (twin : Twin first second registry other session otherSession)
    (entry : JournalEntry) :
    Twin first second registry other (session.note entry) (otherSession.note entry) :=
  ⟨twin.paired.of_same ⟨rfl, rfl, rfl, rfl⟩ ⟨rfl, rfl, rfl, rfl⟩, twin.trace⟩

/-- A run that is recorded, and what is done once it is. -/
theorem concluded (twin : Twin first second registry other session otherSession)
    (renumbered : Registry.Renumbered first second registry other)
    (counterpart : first.Counterpart second id otherId) {pass otherPass : ResolvedPass Instance}
    (found : registry.pass? id = some pass)
    (same : pass.toRegistration = otherPass.toRegistration) (changed : Bool) :
    Twin first second registry other
      ((session.recordRan pass.descriptor.name changed).conclude registry id pass.descriptor.kind)
      ((otherSession.recordRan otherPass.descriptor.name changed).conclude other otherId
        otherPass.descriptor.kind) := by
  have sameDescriptor : pass.descriptor = otherPass.descriptor :=
    congrArg Registration.descriptor same
  have isPass : pass.toRegistration ∈ first.accepted := by
    refine List.mem_of_getElem? (i := id) ?_
    rw [renumbered.resolves.getElem?_accepted, found, Option.map_some]
  have recorded : Paired first second registry other
      (session.recordRan pass.descriptor.name changed)
      (otherSession.recordRan pass.descriptor.name changed) :=
    twin.paired.of_same ⟨rfl, rfl, rfl, rfl⟩ ⟨rfl, rfl, rfl, rfl⟩
  obtain ⟨paired, told, otherTold, regrouped, trace, otherTrace⟩ :=
    recorded.conclude renumbered counterpart pass.descriptor.kind
  rw [renumbered.resolves.names_invalidations found] at regrouped
  rw [← sameDescriptor]
  refine ⟨paired, ?_⟩
  rw [trace, otherTrace]
  simpa [recordRan, record, Session.notice, Session.note] using
    twin.trace.ran isPass changed regrouped

/-- The first prerequisite that is an analysis and not valid, if there is one. -/
theorem find?_stale (twin : Twin first second registry other session otherSession)
    (renumbered : Registry.Renumbered first second registry other) {ids otherIds : List PassId}
    (each : List.Forall₂ (first.Counterpart second) ids otherIds) :
    Option.Rel (first.Counterpart second)
      (ids.find? fun id => registry.isAnalysis id && !session.isValid id)
      (otherIds.find? fun id => other.isAnalysis id && !otherSession.isValid id) := by
  induction each with
  | nil => exact .none
  | cons counterpart _ inductionHypothesis =>
      rw [List.find?_cons, List.find?_cons, ← renumbered.isAnalysis_eq counterpart,
        ← twin.paired.isValid_eq counterpart]
      split
      · exact .some counterpart
      · exact inductionHypothesis

variable [Pass Instance World]

theorem execute (twin : Twin first second registry other session otherSession)
    (renumbered : Registry.Renumbered first second registry other)
    (counterpart : first.Counterpart second id otherId) :
    Alike (Twin first second registry other) (session.execute registry id)
      (otherSession.execute other otherId) := by
  obtain ⟨pass, otherPass, found, foundOther, same⟩ := renumbered.pass? counterpart
  have sameName : pass.descriptor.name = otherPass.descriptor.name := by
    rw [same]
  have stale : Option.Rel (first.Counterpart second)
      (pass.requirements.find? fun id => registry.isAnalysis id && !session.isValid id)
      (otherPass.requirements.find? fun id => other.isAnalysis id && !otherSession.isValid id) := by
    refine twin.find?_stale renumbered ?_
    simpa [Registry.requirements, found, foundOther] using (renumbered.lists counterpart).1
  cases checked : pass.requirements.find? fun id =>
      registry.isAnalysis id && !session.isValid id with
  | some prerequisite =>
      cases checkedOther : otherPass.requirements.find? fun id =>
          other.isAnalysis id && !otherSession.isValid id with
      | none =>
          rw [checked, checkedOther] at stale
          cases stale
      | some otherPrerequisite =>
          rw [checked, checkedOther] at stale
          cases stale with
          | some isSame =>
              unfold Session.execute
              simp only [found, foundOther, checked, checkedOther]
              exact ⟨by rw [sameName, renumbered.name_eq isSame], twin⟩
  | none =>
      cases checkedOther : otherPass.requirements.find? fun id =>
          other.isAnalysis id && !otherSession.isValid id with
      | some otherPrerequisite =>
          rw [checked, checkedOther] at stale
          cases stale
      | none =>
          obtain ⟨sameResult, pairedAfter⟩ := twin.paired.runPass renumbered counterpart same
          rw [execute_eq_runPass session found checked,
            execute_eq_runPass otherSession foundOther checkedOther]
          cases ran : session.runPass id pass with
          | mk result after =>
              cases ranOther : otherSession.runPass otherId otherPass with
              | mk otherResult otherAfter =>
                  rw [ran, ranOther] at sameResult pairedAfter
                  obtain rfl : result = otherResult := sameResult
                  have twinAfter : Twin first second registry other after otherAfter := by
                    refine ⟨pairedAfter, ?_⟩
                    rw [runPass_trace ran, runPass_trace ranOther]
                    exact twin.trace
                  cases result with
                  | error cause => exact ⟨by simp only [sameName], twinAfter⟩
                  | ok changed =>
                      exact ⟨rfl, twinAfter.concluded renumbered counterpart found same changed⟩

end Twin

/-- Schedulers over the same passes in two orders go in lockstep. -/
theorem lockstep_renumbered [Pass Instance World] {registry other : Registry Instance}
    {first second : Registrations Instance}
    (renumbered : Registry.Renumbered first second registry other) :
    Lockstep (first.Counterpart second) registry other
      (Twin first second registry other :
        Session Instance World → Session Instance World → Prop) where
  descriptor?_eq counterpart := renumbered.descriptor?_eq counterpart
  unknown counterpart missing := by
    obtain ⟨pass, _, found, _, _⟩ := renumbered.pass? counterpart
    rw [Registry.descriptor?, found] at missing
    cases missing
  name_eq counterpart := renumbered.name_eq counterpart
  requirements counterpart := (renumbered.lists counterpart).1
  injective counterpart isNext := renumbered.reordered.counterpart_inj counterpart isNext
  level twin := twin.paired.level
  isValid_eq twin counterpart := twin.paired.isValid_eq counterpart
  demanded pass twin := twin.note (.demanded pass)
  told _ twin := twin.note _
  skipped descriptor twin := twin.recordSkipped descriptor
  cached twin counterpart _ := by
    rw [← renumbered.name_eq counterpart]
    exact twin.recordCached _
  execute twin counterpart := twin.execute renumbered counterpart

/-! ## Requests by name -/

section Requests

variable {registry other : Registry Instance} {first second : Registrations Instance}
variable {session otherSession : Session Instance World}

namespace Twin

theorem reset (twin : Twin first second registry other session otherSession) :
    Twin first second registry other session.reset otherSession.reset where
  paired := by
    have ⟨⟨fits, instances⟩, ⟨otherFits, otherInstances⟩, level, world, _, binding⟩ := twin.paired
    refine ⟨⟨?_, instances⟩, ⟨?_, otherInstances⟩, level, world, fun _ => ?_, binding⟩
    · exact (ValiditySet.length_reset _).trans fits
    · exact (ValiditySet.length_reset _).trans otherFits
    · exact (ValiditySet.state_reset _ _).trans (ValiditySet.state_reset _ _).symm
  trace := twin.trace

theorem setLevel (twin : Twin first second registry other session otherSession) (level : Level) :
    Twin first second registry other (session.setLevel level) (otherSession.setLevel level) where
  paired := by
    have ⟨⟨fits, instances⟩, ⟨otherFits, otherInstances⟩, _, world, state, _⟩ := twin.paired
    refine ⟨⟨fits, ?_⟩, ⟨otherFits, ?_⟩, rfl, world, state, fun _ => ?_⟩
    · exact List.length_replicate.trans instances
    · exact List.length_replicate.trans otherInstances
    · exact (binding?_of_none rfl _).trans (binding?_of_none rfl _).symm
  trace := twin.trace

/-- Every name has the same state. -/
theorem state_eq (twin : Twin first second registry other session otherSession)
    (renumbered : Registry.Renumbered first second registry other) (name : String) :
    (registry.id? name).map session.validity.state =
      (other.id? name).map otherSession.validity.state := by
  have found := renumbered.id? name
  generalize registry.id? name = id? at found
  generalize other.id? name = otherId? at found
  cases found with
  | none => rfl
  | some counterpart => exact congrArg some (twin.paired.state counterpart)

theorem clearTrace (twin : Twin first second registry other session otherSession) :
    Twin first second registry other session.clearTrace otherSession.clearTrace where
  paired := twin.paired.of_same ⟨rfl, rfl, rfl, rfl⟩ ⟨rfl, rfl, rfl, rfl⟩
  trace := .nil

end Twin

theorem twin_start (first second : Registrations Instance) (registry other : Registry Instance)
    (level : Level) (world : World) :
    Twin first second registry other (start registry level world) (start other level world) where
  paired :=
    ⟨⟨List.length_replicate, List.length_replicate⟩,
      ⟨List.length_replicate, List.length_replicate⟩, rfl, rfl,
      fun _ => (ValiditySet.state_fresh _ _).trans (ValiditySet.state_fresh _ _).symm,
      fun _ => (binding?_of_none rfl _).trans (binding?_of_none rfl _).symm⟩
  trace := .nil

variable [Pass Instance World]

theorem simulates_renumbered (renumbered : Registry.Renumbered first second registry other) :
    Simulates (first.Counterpart second) (Twin first second registry other)
      (Session.demand registry : Demanding Instance World) (Session.demand other) where
  toParallels := (lockstep_renumbered renumbered).parallels
  reset twin := twin.reset
  setLevel level twin := twin.setLevel level
  clearTrace twin := twin.clearTrace

namespace Twin

theorem perform (twin : Twin first second registry other session otherSession)
    (renumbered : Registry.Renumbered first second registry other) {request : Request}
    (byName : request.ByName) :
    Alike (Twin first second registry other) (session.perform registry request)
      (otherSession.perform other request) := by
  have alike := (simulates_renumbered renumbered).performNamed renumbered.id? byName twin
  rwa [performBy_demand, performBy_demand] at alike

theorem performAll (twin : Twin first second registry other session otherSession)
    (renumbered : Registry.Renumbered first second registry other) {requests : List Request}
    (byName : ∀ request ∈ requests, request.ByName) :
    Twin first second registry other (session.performAll registry requests)
      (otherSession.performAll other requests) := by
  have after := (simulates_renumbered renumbered).performAllNamed renumbered.id? byName twin
  rwa [performAllBy_demand, performAllBy_demand] at after

end Twin

/-- The order in which passes are registered makes no difference to whether they can be registered
and built, and none to what is asked by name: the answers, the runs, the states of all passes and
the world are the same, and the traces match. -/
theorem performAll_reordered {first second : Registrations Instance}
    (registered : first.Registered) (perm : first.accepted.Perm second.accepted) :
    second.Registered ∧
      ((∃ registry, first.build = .ok registry) ↔ ∃ other, second.build = .ok other) ∧
      ∀ registry other, first.build = .ok registry → second.build = .ok other →
        ∀ (level : Level) (world : World) (requests : List Request),
          (∀ request ∈ requests, request.ByName) →
          let session := (start registry level world).performAll registry requests
          let otherSession := (start other level world).performAll other requests
          (∀ request : Request, request.ByName →
            (session.perform registry request).1 = (otherSession.perform other request).1) ∧
          session.trace.executed = otherSession.trace.executed ∧
          first.Matching session.trace.toList otherSession.trace.toList ∧
          session.world = otherSession.world ∧
          ∀ name, (registry.id? name).map session.validity.state =
            (other.id? name).map otherSession.validity.state := by
  have reordered : first.Reordered second := ⟨registered, perm⟩
  refine ⟨registered.perm perm, ⟨reordered.builds, reordered.symm.builds⟩, ?_⟩
  intro registry other built otherBuilt level world requests byName
  have renumbered : Registry.Renumbered first second registry other :=
    ⟨reordered, (Registry.resolves_of_build registered built).1,
      (Registry.resolves_of_build reordered.symm.registered otherBuilt).1⟩
  have twin := (twin_start first second registry other level world).performAll renumbered byName
  exact ⟨fun request isByName => (twin.perform renumbered isByName).result, twin.trace.executed,
    twin.trace, twin.paired.world, twin.state_eq renumbered⟩

end Requests

end Session

/-! ## Two dependents in two orders -/

namespace Reporter

/-- An analysis that two others require, and a transformation that makes it stale. -/
def spread : List (ResolvedPass Reporter) :=
  [⟨⟨.analysis "flow", fun _ => ⟨false⟩⟩, [], []⟩,
    ⟨⟨(Descriptor.analysis "left").requiring "flow", fun _ => ⟨false⟩⟩, [0], []⟩,
    ⟨⟨(Descriptor.analysis "right").requiring "flow", fun _ => ⟨false⟩⟩, [0], []⟩,
    ⟨⟨(Descriptor.transformation "fold").invalidating "flow", fun _ => ⟨true⟩⟩, [], [0]⟩]

/-- The same passes, registered the other way round. -/
def spreadBack : List (ResolvedPass Reporter) :=
  [⟨⟨(Descriptor.transformation "fold").invalidating "flow", fun _ => ⟨true⟩⟩, [], [3]⟩,
    ⟨⟨(Descriptor.analysis "right").requiring "flow", fun _ => ⟨false⟩⟩, [3], []⟩,
    ⟨⟨(Descriptor.analysis "left").requiring "flow", fun _ => ⟨false⟩⟩, [3], []⟩,
    ⟨⟨.analysis "flow", fun _ => ⟨false⟩⟩, [], []⟩]

/-- What was registered. -/
def registrationsOf (passes : List (ResolvedPass Reporter)) : Registrations Reporter :=
  ⟨passes.map ResolvedPass.toRegistration⟩

theorem performAll_reordered_spread :
    let requests := [.runList ["left", "right", "fold"]]
    let session := (Session.start (.ofPasses spread) 0 ()).performAll (.ofPasses spread) requests
    let back :=
      (Session.start (.ofPasses spreadBack) 0 ()).performAll (.ofPasses spreadBack) requests
    (registrationsOf spread).Registered ∧
      (registrationsOf spread).accepted.Perm (registrationsOf spreadBack).accepted ∧
      (registrationsOf spread).build = .ok (.ofPasses spread) ∧
      (registrationsOf spreadBack).build = .ok (.ofPasses spreadBack) ∧
      (registrationsOf spread).Matching session.trace.toList back.trace.toList ∧
      session.trace.toList ≠ back.trace.toList := by
  have registered : (registrationsOf spread).Registered :=
    (((Registrations.Registered.empty.add (registrationsOf spread).accepted[0] rfl).add
      (registrationsOf spread).accepted[1] rfl).add (registrationsOf spread).accepted[2] rfl).add
        (registrationsOf spread).accepted[3] rfl
  have perm : (registrationsOf spread).accepted.Perm (registrationsOf spreadBack).accepted :=
    (List.reverse_perm _).symm
  have built : (registrationsOf spread).build = .ok (.ofPasses spread) := by
    have resolved : (registrationsOf spread).resolvePasses (registrationsOf spread).accepted =
        .ok spread := rfl
    have faultless : (Registry.ofPasses spread).fault? = none := by cbv
    simp only [Registrations.build, resolved, faultless]
  have builtBack : (registrationsOf spreadBack).build = .ok (.ofPasses spreadBack) := by
    have resolved : (registrationsOf spreadBack).resolvePasses
        (registrationsOf spreadBack).accepted = .ok spreadBack := rfl
    have faultless : (Registry.ofPasses spreadBack).fault? = none := by cbv
    simp only [Registrations.build, resolved, faultless]
  have byName : ∀ request ∈ [Request.runList ["left", "right", "fold"]], request.ByName := by
    simp [Request.ByName]
  obtain ⟨_, _, matching, _⟩ :=
    (Session.performAll_reordered registered perm).2.2 _ _ built builtBack 0 () _ byName
  have recorded : ((Session.start (.ofPasses spread) 0 ()).performAll (.ofPasses spread)
      [.runList ["left", "right", "fold"]]).trace.toList =
        [⟨"flow", .ran false⟩, ⟨"left", .ran false⟩, ⟨"flow", .cached⟩, ⟨"right", .ran false⟩,
          ⟨"fold", .ran true⟩, ⟨"flow", .invalidated⟩, ⟨"left", .invalidated⟩,
          ⟨"right", .invalidated⟩] := by
    cbv
  have recordedBack : ((Session.start (.ofPasses spreadBack) 0 ()).performAll
      (.ofPasses spreadBack) [.runList ["left", "right", "fold"]]).trace.toList =
        [⟨"flow", .ran false⟩, ⟨"left", .ran false⟩, ⟨"flow", .cached⟩, ⟨"right", .ran false⟩,
          ⟨"fold", .ran true⟩, ⟨"flow", .invalidated⟩, ⟨"right", .invalidated⟩,
          ⟨"left", .invalidated⟩] := by
    cbv
  refine ⟨registered, perm, built, builtBack, matching, ?_⟩
  rw [recorded, recordedBack]
  decide

end Reporter

end PassScheduler
