import PassScheduler.Proofs.Registry.Configuration
import PassScheduler.Proofs.Schedule.Observation
import PassScheduler.Proofs.Schedule.Prerequisites
import PassScheduler.Proofs.Schedule.Replay

/-!
Contract: a demand closes a circle of requirements iff there is one.

A pass is valid only after all that it requires has run, so a valid pass is grounded: nothing that
it requires, directly or through others, requires itself. A demand therefore cannot get past a
circle by what earlier demands left valid. The passes that wait for one another form a way from the
demanded pass, and a circle or a depth is reported for a way that has gone too far.

Owns:
- that valid passes of reachable sessions are grounded;
- the ways of waiting passes, and with what each error of a demand leaves them;
- which demands close a circle, which succeed, and what a reported circle is.

Does not own: which circle is reported.
-/

open Relation (ReflTransGen TransGen)

namespace PassScheduler

open Search (Circle Grounded)

namespace Registry

variable {Instance : Type}

/-- A pass requires, directly or through others, one that requires itself. -/
def Circular (registry : Registry Instance) (id : PassId) : Prop :=
  ∃ node, ReflTransGen registry.Requires id node ∧ TransGen registry.Requires node node

theorem lt_size_of_descriptor? {registry : Registry Instance} {id : PassId}
    {descriptor : Descriptor} (isPass : registry.descriptor? id = some descriptor) :
    id < registry.size := by
  obtain ⟨pass, found, _⟩ := Option.map_eq_some_iff.1 isPass
  exact lt_size_of_pass? found

theorem not_circular_of_grounded {registry : Registry Instance} {id : PassId}
    (grounded : Grounded registry.Requires id) :
    ¬ registry.Circular id := by
  rintro ⟨node, way, loop⟩
  exact (grounded.reach way).not_transGen loop

/-- No circle of an accepted registry consists of analyses. -/
theorem Accepted.exists_transformation {registry : Registry Instance}
    (accepted : registry.Accepted) {walk : List PassId}
    (circle : Circle registry.Requires walk) :
    ∃ id ∈ walk, ∃ descriptor, registry.descriptor? id = some descriptor ∧
      descriptor.kind = .transformation := by
  have ⟨registrations, registered, built⟩ := accepted
  obtain ⟨resolves, _⟩ := resolves_of_build registered built
  obtain ⟨_, uncircled, _, _⟩ := Registrations.sound_of_build registered built
  by_contra noneTransforms
  have areAnalyses : ∀ id ∈ walk, registry.isAnalysis id := by
    intro id mem
    obtain ⟨source, _, requires⟩ := circle.exists_source id mem
    obtain ⟨descriptor, isPass, _⟩ :=
      resolves.exists_descriptor (accepted.resolved.requirement_lt requires)
    rw [resolves.descriptor?_eq] at isPass
    cases kind : descriptor.kind with
    | analysis => simp [isAnalysis, isPass, Descriptor.isAnalysis, kind]
    | transformation => exact absurd ⟨id, mem, descriptor, isPass, kind⟩ noneTransforms
  have circleOfAnalyses : Circle registrations.AnalysisRequires walk := {
    circle with
    steps := circle.steps.imp_of_mem_imp fun source target isSource isTarget requires =>
      resolves.analysisRequires_iff.2 ⟨requires, areAnalyses source isSource,
        areAnalyses target isTarget⟩ }
  obtain ⟨id, _, loop⟩ := circleOfAnalyses.exists_transGen
  exact uncircled id loop

end Registry

namespace Session

variable {Instance World : Type} [Pass Instance World] {registry : Registry Instance}

/-! ## Valid passes are grounded -/

/-- Nothing that a valid pass requires, directly or through others, requires itself. -/
def ValidGrounded (registry : Registry Instance) (session : Session Instance World) : Prop :=
  ∀ id, session.isValid id → Grounded registry.Requires id

theorem Executed.validGrounded {session : Session Instance World} {id : PassId}
    {attempt : Attempt Instance World Bool} (executed : Executed registry session id attempt)
    (fits : session.Fits registry) (held : ValidGrounded registry session)
    (grounded : Grounded registry.Requires id) :
    ValidGrounded registry attempt.2 := by
  intro other valid
  cases result : attempt.1 with
  | error error =>
      rw [isValid, executed.validity_of_error result] at valid
      exact held other valid
  | ok changed =>
      rcases (executed.isValid_of_ok fits result other).1 valid with ⟨rfl, _⟩ | ⟨_, wasValid, _⟩
      · exact grounded
      · exact held other wasValid

/-- Prerequisites that are met are grounded: what was valid is, and what had to run ran after all
that it requires was met. -/
theorem Met.grounded {path pending : List PassId} {session : Session Instance World}
    {attempt : Attempt Instance World Unit} (met : Met registry path pending session attempt)
    (fits : session.Fits registry) (held : ValidGrounded registry session) :
    ValidGrounded registry attempt.2 ∧
      (attempt.1 = .ok () → ∀ next ∈ pending, Grounded registry.Requires next) := by
  induction met with
  | done => exact ⟨held, by simp⟩
  | @cached path pending next session attempt valid _ inductionHypothesis =>
      obtain ⟨after, rest⟩ := inductionHypothesis fits held
      exact ⟨after, fun succeeded => List.forall_mem_cons.2 ⟨held next valid, rest succeeded⟩⟩
  | circular => exact ⟨held, nofun⟩
  | tooDeep => exact ⟨held, nofun⟩
  | blocked _ _ _ _ above => exact ⟨(above fits held).1, nofun⟩
  | @failed _ _ next _ _ _ _ _ _ _ aboveMet executed above =>
      obtain ⟨between, requirements⟩ := above fits held
      have grounded : Grounded registry.Requires next := .of_edges (requirements rfl)
      exact ⟨executed.validGrounded (aboveMet.fits fits) between grounded, nofun⟩
  | @ran _ _ next _ _ _ _ _ _ _ _ aboveMet executed _ above rest =>
      obtain ⟨between, requirements⟩ := above fits held
      have grounded : Grounded registry.Requires next := .of_edges (requirements rfl)
      have fitsBetween := aboveMet.fits fits
      obtain ⟨after, others⟩ := rest (executed.fits fitsBetween)
        (executed.validGrounded fitsBetween between grounded)
      exact ⟨after, fun succeeded => List.forall_mem_cons.2 ⟨grounded, others succeeded⟩⟩

/-- A demand that succeeds is of a grounded pass, unless the pass takes no part. -/
theorem Demanded.grounded {session : Session Instance World} {id : PassId}
    {attempt : Attempt Instance World Bool} (demanded : Demanded registry session id attempt)
    (fits : session.Fits registry) (held : ValidGrounded registry session) :
    ValidGrounded registry attempt.2 ∧
      ∀ descriptor changed, registry.descriptor? id = some descriptor →
        descriptor.isEnabledAt session.level → attempt.1 = .ok changed →
          Grounded registry.Requires id := by
  cases demanded with
  | unknown => exact ⟨held, nofun⟩
  | skipped found gated =>
      refine ⟨held, fun descriptor _ isPass enabled => ?_⟩
      obtain rfl := Option.some.inj (found.symm.trans isPass)
      exact absurd enabled gated
  | cached _ _ valid => exact ⟨held, fun _ _ _ _ _ => held id valid⟩
  | blocked _ _ _ met => exact ⟨(met.grounded fits held).1, nofun⟩
  | ran _ _ _ met executed =>
      obtain ⟨between, requirements⟩ := met.grounded fits held
      have grounded : Grounded registry.Requires id := .of_edges (requirements rfl)
      exact ⟨executed.validGrounded (met.fits fits) between grounded, fun _ _ _ _ _ => grounded⟩

theorem Reachable.validGrounded {session : Session Instance World}
    (reachable : Reachable registry session) :
    ValidGrounded registry session := by
  have both : session.Fits registry ∧ ValidGrounded registry session := by
    apply reachable.invariant
    · intro level world
      exact ⟨List.length_replicate, fun id valid => absurd valid (not_isValid_start _ _ _ id)⟩
    · intro session world held
      exact held
    · rintro before after moved ⟨fits, held⟩
      refine ⟨fits_of_moves (.single moved) fits, ?_⟩
      cases moved with
      | demand id => exact ((demanded registry before id).grounded fits held).1
      | reset => exact fun id valid => absurd valid (before.not_isValid_reset id)
      | _ => exact held
  exact both.2

/-! ## Passes that wait for one another -/

/-- The passes that wait while a pass is demanded, the latest first: each one is required by the
one after it. -/
structure Waiting (registry : Registry Instance) (demanded : PassId) (path : List PassId) :
    Prop where
  steps : path.IsChain (fun later earlier => registry.Requires earlier later)
  once : path.Nodup
  bottom : path.getLast? = some demanded

theorem waiting_single (registry : Registry Instance) (id : PassId) :
    Waiting registry id [id] :=
  ⟨List.isChain_singleton id, List.nodup_singleton id, rfl⟩

namespace Waiting

variable {demanded next : PassId} {path : List PassId}

theorem push (waiting : Waiting registry demanded path)
    (required : ∀ top ∈ path.head?, registry.Requires top next) (offPath : next ∉ path) :
    Waiting registry demanded (next :: path) where
  steps := List.isChain_cons.2 ⟨required, waiting.steps⟩
  once := List.nodup_cons.2 ⟨offPath, waiting.once⟩
  bottom := by rw [List.getLast?_cons, waiting.bottom]; rfl

theorem reached (waiting : Waiting registry demanded path) :
    ∀ node ∈ path, ReflTransGen registry.Requires demanded node := by
  obtain ⟨steps, once, bottom⟩ := waiting
  clear once
  induction path with
  | nil => simp
  | cons first rest inductionHypothesis =>
      cases rest with
      | nil =>
          obtain rfl : first = demanded := by simpa using bottom
          simpa using ReflTransGen.refl
      | cons second others =>
          obtain ⟨requires, stepsOfRest⟩ := List.isChain_cons_cons.1 steps
          rw [List.getLast?_cons_cons] at bottom
          have reached := inductionHypothesis stepsOfRest bottom
          refine List.forall_mem_cons.2 ⟨?_, reached⟩
          exact (reached second (by simp)).tail requires

end Waiting

/-- With what an error leaves a demand: the passes that wait when it is found, or the session of a
run that failed. -/
inductive Stopped (registry : Registry Instance) (demanded : PassId) :
    ScheduleError → Session Instance World → Prop where
  | circle {path : List PassId} {next : PassId} {session : Session Instance World}
      (waiting : Waiting registry demanded path)
      (required : ∀ top ∈ path.head?, registry.Requires top next) (onPath : next ∈ path) :
      Stopped registry demanded (.requirementCycle
        ((path.reverse.dropWhile (· ≠ next) ++ [next]).map registry.name)) session
  | depth {path : List PassId} {next : PassId} {session : Session Instance World}
      (waiting : Waiting registry demanded (next :: path)) (deep : maxDepth ≤ path.length) :
      Stopped registry demanded (.depthExceeded maxDepth) session
  | execution {id : PassId} {error : ScheduleError} {between after : Session Instance World}
      (isPart : ReflTransGen registry.Requires demanded id)
      (executed : Executed registry between id (.error error, after)) :
      Stopped registry demanded error after

theorem Met.stopped {demanded : PassId} {path pending : List PassId}
    {session : Session Instance World} {attempt : Attempt Instance World Unit}
    (met : Met registry path pending session attempt) (waiting : Waiting registry demanded path)
    (required : ∀ next ∈ pending, ∀ top ∈ path.head?, registry.Requires top next)
    {error : ScheduleError} (failed : attempt.1 = .error error) :
    Stopped registry demanded error attempt.2 := by
  induction met with
  | done => cases failed
  | cached _ _ inductionHypothesis =>
      exact inductionHypothesis waiting (List.forall_mem_cons.1 required).2 failed
  | circular _ onPath =>
      cases failed
      exact .circle waiting (List.forall_mem_cons.1 required).1 onPath
  | tooDeep _ offPath deep =>
      cases failed
      exact .depth (waiting.push (List.forall_mem_cons.1 required).1 offPath) (Nat.not_lt.1 deep)
  | @blocked path _ next _ _ _ _ offPath _ _ above =>
      have pushed := waiting.push (List.forall_mem_cons.1 required).1 offPath
      refine above pushed ?_ failed
      rintro other requires _ ⟨⟩
      exact requires
  | failed _ offPath _ _ executed =>
      cases failed
      have pushed := waiting.push (List.forall_mem_cons.1 required).1 offPath
      exact .execution (pushed.reached _ (by simp)) executed
  | ran _ _ _ _ _ _ _ rest => exact rest waiting (List.forall_mem_cons.1 required).2 failed

theorem Demanded.stopped {session : Session Instance World} {id : PassId}
    {attempt : Attempt Instance World Bool} (demanded : Demanded registry session id attempt)
    {descriptor : Descriptor} (isPass : registry.descriptor? id = some descriptor)
    {error : ScheduleError} (failed : attempt.1 = .error error) :
    Stopped registry id error attempt.2 := by
  cases demanded with
  | unknown missing => cases missing.symm.trans isPass
  | skipped => cases failed
  | cached => cases failed
  | blocked _ _ _ met =>
      cases failed
      refine met.stopped (waiting_single registry id) ?_ rfl
      rintro other requires _ ⟨⟩
      exact requires
  | @ran _ _ attempt _ _ _ _ executed =>
      obtain ⟨result, after⟩ := attempt
      cases failed
      exact .execution .refl executed

/-- A reported circle is one, and the demanded pass requires all of its passes. -/
theorem Stopped.circle_of_cycle {demanded : PassId} {names : List String}
    {after : Session Instance World}
    (stopped : Stopped registry demanded (.requirementCycle names) after) :
    ∃ walk, names = walk.map registry.name ∧ Circle registry.Requires walk ∧
      ∀ node ∈ walk, ReflTransGen registry.Requires demanded node := by
  generalize isError : ScheduleError.requirementCycle names = error at stopped
  cases stopped with
  | @circle path next session waiting required onPath =>
      refine ⟨_, ScheduleError.requirementCycle.inj isError, ?_, ?_⟩
      · refine Search.circle_of_way (List.isChain_reverse.2 waiting.steps)
          (List.nodup_reverse.2 waiting.once) (List.mem_reverse.2 onPath) ?_
        rw [List.getLast?_reverse]
        exact required
      · intro node mem
        refine waiting.reached node ?_
        rcases List.mem_append.1 mem with mem | isNext
        · exact List.mem_reverse.1 ((List.dropWhile_sublist _).subset mem)
        · exact List.mem_singleton.1 isNext ▸ onPath
  | depth => cases isError
  | execution _ executed => cases executed <;> cases isError

/-- For an exceeded depth there is a way of more passes than may wait. -/
theorem Stopped.chain_of_depth {demanded : PassId} {depth : Nat} {after : Session Instance World}
    (stopped : Stopped registry demanded (.depthExceeded depth) after) :
    ∃ chain : List PassId, chain.head? = some demanded ∧ chain.IsChain registry.Requires ∧
      maxDepth < chain.length := by
  generalize isError : ScheduleError.depthExceeded depth = error at stopped
  cases stopped with
  | circle => cases isError
  | @depth path next _ waiting deep =>
      refine ⟨(next :: path).reverse, ?_, List.isChain_reverse.2 waiting.steps, ?_⟩
      · rw [List.head?_reverse, waiting.bottom]
      · rw [List.length_reverse, List.length_cons]
        omega
  | execution _ executed => cases executed <;> cases isError

/-! ## What a demand comes to -/

/-- A pass that reported an error was entered last, and is among the entries with what it found. -/
theorem Stopped.exists_entry {demanded : PassId} {pass : String} {cause : PassError}
    {after : Session Instance (Observed Instance World)}
    (stopped : Stopped registry demanded (.passFailed pass cause) after) :
    ∃ entry ∈ after.world.entries, (Pass.run entry.1 entry.2).1 = .error cause := by
  generalize isError : ScheduleError.passFailed pass cause = error at stopped
  cases stopped with
  | circle => cases isError
  | depth => cases isError
  | @execution id _ between _ _ executed =>
      cases executed with
      | unknown => cases isError
      | stale => cases isError
      | @failed found _ _ _ _ ran =>
          cases isError
          obtain ⟨_, _, sameWorld⟩ := between.obtain_frame id found
          have outcome : (Pass.run (between.obtain id found).1.bound
              (between.obtain id found).2.world).1 = .error cause :=
            congrArg Prod.fst ran
          rw [sameWorld] at outcome
          refine ⟨((between.obtain id found).1.bound, between.world.world), ?_, outcome⟩
          rw [Observed.entries_of_runPass ran]
          simp

/-- A demand in an accepted registry fails because a pass that it entered does, because of a circle
or because of a depth. -/
theorem Demanded.error_cases {session : Session Instance World} {id : PassId}
    {attempt : Attempt Instance World Bool} (demanded : Demanded registry session id attempt)
    (accepted : registry.Accepted) (fits : session.Fits registry) {descriptor : Descriptor}
    (isPass : registry.descriptor? id = some descriptor) {error : ScheduleError}
    (failed : attempt.1 = .error error) :
    (∃ pass cause, error = .passFailed pass cause) ∨ (∃ names, error = .requirementCycle names) ∨
      ∃ depth, error = .depthExceeded depth := by
  cases error with
  | passFailed pass cause => exact .inl ⟨pass, cause, rfl⟩
  | requirementCycle names => exact .inr (.inl ⟨names, rfl⟩)
  | depthExceeded depth => exact .inr (.inr ⟨depth, rfl⟩)
  | stalePrerequisite pass prerequisite =>
      exact absurd rfl (demanded.not_stale accepted fits failed pass prerequisite)
  | unknownPass name =>
      generalize isError : ScheduleError.unknownPass name = error at failed
      cases demanded.stopped isPass failed with
      | circle => cases isError
      | depth => cases isError
      | @execution other _ _ _ isPart executed =>
          cases executed with
          | unknown missing =>
              have inside : other < registry.size := by
                rcases isPart.cases_tail with rfl | ⟨_, _, requires⟩
                · exact Registry.lt_size_of_descriptor? isPass
                · exact accepted.resolved.requirement_lt requires
              have found : registry.pass? other = some registry.passes[other] :=
                List.getElem?_eq_getElem inside
              cases missing.symm.trans found
          | stale => cases isError
          | failed => cases isError

section Demand

variable {session : Session Instance World} {id : PassId} {descriptor : Descriptor}

theorem Reachable.demand_ne_ok (reachable : Reachable registry session)
    (isPass : registry.descriptor? id = some descriptor)
    (enabled : descriptor.isEnabledAt session.level) (circular : registry.Circular id)
    (changed : Bool) :
    (session.demand registry id).1 ≠ .ok changed := by
  intro succeeded
  have grounded := (demanded registry session id).grounded reachable.fits reachable.validGrounded
  exact Registry.not_circular_of_grounded
    (grounded.2 descriptor changed isPass enabled succeeded) circular

theorem demand_ne_requirementCycle (isPass : registry.descriptor? id = some descriptor)
    (acyclic : ¬ registry.Circular id) (path : List String) :
    (session.demand registry id).1 ≠ .error (.requirementCycle path) := by
  intro failed
  obtain ⟨walk, _, circle, reached⟩ :=
    ((demanded registry session id).stopped isPass failed).circle_of_cycle
  obtain ⟨node, mem, loop⟩ := circle.exists_transGen
  exact acyclic ⟨node, reached node mem, loop⟩

/-- Where no circle and no depth is in the way, a demand fails only with a pass that was entered. -/
theorem passFailed_of_demand (accepted : registry.Accepted) (fits : session.Fits registry)
    (isPass : registry.descriptor? id = some descriptor) (acyclic : ¬ registry.Circular id)
    (bounded : ∀ chain : List PassId, chain.head? = some id → chain.IsChain registry.Requires →
      chain.length ≤ maxDepth)
    {error : ScheduleError} (failed : (session.demand registry id).1 = .error error) :
    ∃ pass cause, error = .passFailed pass cause := by
  have demanded := demanded registry session id
  rcases demanded.error_cases accepted fits isPass failed with
    isFailure | ⟨names, rfl⟩ | ⟨depth, rfl⟩
  · exact isFailure
  · exact absurd failed (demand_ne_requirementCycle isPass acyclic names)
  · obtain ⟨chain, starts, steps, long⟩ := (demanded.stopped isPass failed).chain_of_depth
    exact absurd (bounded chain starts steps) (Nat.not_le.2 long)

/-- The session on a world that remembers what each pass finds. -/
def observed (session : Session Instance World) : Session Instance (Observed Instance World) :=
  session.viewed Observed.ofWorld

theorem Reachable.demand_ok (reachable : Reachable registry session)
    (accepted : registry.Accepted) (isPass : registry.descriptor? id = some descriptor)
    (acyclic : ¬ registry.Circular id)
    (bounded : ∀ chain : List PassId, chain.head? = some id → chain.IsChain registry.Requires →
      chain.length ≤ maxDepth)
    (sound : ∀ entry ∈ (session.observed.demand registry id).2.world.entries,
      ∃ changed, (Pass.run entry.1 entry.2).1 = .ok changed) :
    ∃ changed, (session.demand registry id).1 = .ok changed := by
  cases result : (session.demand registry id).1 with
  | ok changed => exact ⟨changed, rfl⟩
  | error error =>
      obtain ⟨pass, cause, rfl⟩ :=
        passFailed_of_demand accepted reachable.fits isPass acyclic bounded result
      have sameAttempt : session.demand registry id =
          seen Observed.world (session.observed.demand registry id) :=
        demand_viewed Observed.isView session.observed id
      have failed : (session.observed.demand registry id).1 =
          .error (.passFailed pass cause) := by
        rw [← result, sameAttempt]
        rfl
      obtain ⟨entry, mem, isError⟩ :=
        ((demanded registry session.observed id).stopped isPass failed).exists_entry
      obtain ⟨changed, isOk⟩ := sound entry mem
      cases isOk.symm.trans isError

end Demand

/-- The requests that demand one pass. -/
inductive Demands (registry : Registry Instance) (id : PassId) : Request → Prop where
  | byNumber : Demands registry id (.demand id)
  | byName : Demands registry id (.demandNamed (registry.name id))

theorem Demands.perform_eq {request : Request} {id : PassId}
    (demands : Demands registry id request) (accepted : registry.Accepted)
    (inside : id < registry.size) (session : Session Instance World) :
    session.perform registry request = answering .changed (session.demand registry id) := by
  cases demands with
  | byNumber => rfl
  | byName =>
      show answering .changed (session.demandNamed registry (registry.name id)) = _
      rw [demandNamed, accepted.id?_name inside]

/-- A demand of a pass that takes part is never answered if the pass requires a circle, and never
closes a circle if it does not. Then it is answered if no chain of requirements from the pass is
too long and no pass that is entered on the way, as is seen by observing the world, fails. A circle
that any request reports is one, and has a transformation in it. -/
theorem Reachable.perform_circular {session : Session Instance World}
    (reachable : Reachable registry session) (accepted : registry.Accepted) :
    (∀ id descriptor request, registry.descriptor? id = some descriptor →
        descriptor.isEnabledAt session.level → Demands registry id request →
          (registry.Circular id → ∀ answer, (session.perform registry request).1 ≠ .ok answer) ∧
            (¬ registry.Circular id →
              (∀ path, (session.perform registry request).1 ≠ .error (.requirementCycle path)) ∧
              ((∀ chain : List PassId, chain.head? = some id → chain.IsChain registry.Requires →
                  chain.length ≤ maxDepth) →
                (∀ entry ∈ (session.observed.perform registry request).2.world.entries,
                  ∃ changed, (Pass.run entry.1 entry.2).1 = .ok changed) →
                ∃ answer, (session.perform registry request).1 = .ok answer))) ∧
      ∀ request path, (session.perform registry request).1 = .error (.requirementCycle path) →
        ∃ walk, path = walk.map registry.name ∧ Circle registry.Requires walk ∧
          ∃ id ∈ walk, ∃ descriptor, registry.descriptor? id = some descriptor ∧
            descriptor.kind = .transformation := by
  constructor
  · intro id descriptor request isPass enabled demands
    have inside := Registry.lt_size_of_descriptor? isPass
    simp only [demands.perform_eq accepted inside, answering]
    cases result : (session.demand registry id).1 with
    | ok changed =>
        refine ⟨fun circular => ?_, fun _ => ⟨?_, fun _ _ => ⟨.changed changed, rfl⟩⟩⟩
        · exact absurd result (reachable.demand_ne_ok isPass enabled circular changed)
        · rintro path ⟨⟩
    | error error =>
        refine ⟨fun _ => ?_, fun acyclic => ⟨?_, fun bounded sound => ?_⟩⟩
        · rintro answer ⟨⟩
        · rintro path ⟨⟩
          exact demand_ne_requirementCycle isPass acyclic path result
        · obtain ⟨changed, succeeded⟩ :=
            reachable.demand_ok accepted isPass acyclic bounded sound
          cases result.symm.trans succeeded
  · intro request path failed
    cases (follows_perform session request).origin _ failed with
    | @demand before id _ _ failedDemand =>
        cases isPass : registry.descriptor? id with
        | none => simp [demand, isPass] at failedDemand
        | some descriptor =>
            obtain ⟨walk, isPath, circle, _⟩ :=
              ((demanded registry before id).stopped isPass failedDemand).circle_of_cycle
            exact ⟨walk, isPath, circle, accepted.exists_transformation circle⟩

/-- A transformation and an analysis that require each other, and a transformation that requires
an analysis. -/
def winding : List (ResolvedPass StandardPass) :=
  [⟨⟨(Descriptor.transformation "a").requiring "b", fun _ => .constFold⟩, [1], []⟩,
    ⟨⟨(Descriptor.analysis "b").requiring "a", fun _ => .liveness⟩, [0], []⟩,
    ⟨⟨(Descriptor.transformation "c").requiring "d", fun _ => .constFold⟩, [3], []⟩,
    ⟨⟨Descriptor.analysis "d", fun _ => .verify⟩, [], []⟩]

theorem accepted_winding : (Registry.ofPasses winding).Accepted := by
  have registered : (Registrations.mk (winding.map ResolvedPass.toRegistration)).Registered :=
    (((Registrations.Registered.empty.add winding[0].toRegistration rfl).add
      winding[1].toRegistration rfl).add winding[2].toRegistration rfl).add
      winding[3].toRegistration rfl
  have faultless : (Registry.ofPasses winding).fault? = none := by cbv
  exact ⟨_, registered, Registry.build_of_resolved rfl faultless⟩

theorem Reachable.perform_circular_winding :
    let registry := Registry.ofPasses winding
    let session := Session.start registry 0
      (Program.ofFunctions [⟨"main", [], [⟨"entry", [], .ret (.imm 0)⟩]⟩])
    registry.Accepted ∧ Reachable registry session ∧
      (∀ answer, (session.perform registry (.demandNamed "a")).1 ≠ .ok answer) ∧
      (∃ answer, (session.perform registry (.demand 2)).1 = .ok answer) ∧
      (session.perform registry (.demand 1)).1 = .error (.requirementCycle ["b", "a", "b"]) ∧
      ∃ walk, ["b", "a", "b"] = walk.map registry.name ∧ Circle registry.Requires walk := by
  intro registry session
  have reachable : Reachable registry session := .start 0 _
  obtain ⟨demands, circles⟩ := reachable.perform_circular accepted_winding
  have reported : (session.perform registry (.demand 1)).1 =
      .error (.requirementCycle ["b", "a", "b"]) := by cbv
  obtain ⟨walk, isPath, circle, _⟩ := circles _ _ reported
  have loop : registry.Circular 0 := by
    have there : registry.Requires 0 1 := List.mem_singleton_self 1
    have back : registry.Requires 1 0 := List.mem_singleton_self 0
    exact ⟨0, .refl, .tail (.single there) back⟩
  have last : ∀ other, ¬ registry.Requires 3 other := fun _ => List.not_mem_nil
  have only : ∀ other, registry.Requires 2 other → other = 3 :=
    fun _ requires => List.mem_singleton.1 requires
  have acyclic : ¬ registry.Circular 2 := by
    refine Registry.not_circular_of_grounded (.of_edges fun other requires => ?_)
    obtain rfl := only other requires
    exact .of_edges fun other requires => absurd requires (last other)
  have bounded : ∀ chain : List PassId, chain.head? = some 2 →
      chain.IsChain registry.Requires → chain.length ≤ maxDepth := by
    intro chain starts steps
    rcases chain with _ | ⟨first, _ | ⟨second, _ | ⟨third, rest⟩⟩⟩
    · simp
    · simp [maxDepth]
    · simp [maxDepth]
    · obtain rfl : first = 2 := by simpa using starts
      obtain ⟨toSecond, others⟩ := List.isChain_cons_cons.1 steps
      obtain rfl := only second toSecond
      exact absurd (List.isChain_cons_cons.1 others).1 (last third)
  have sound : ∀ entry ∈ (session.observed.perform registry (.demand 2)).2.world.entries,
      ∃ changed, (Pass.run entry.1 entry.2).1 = .ok changed := by
    have entered : (session.observed.perform registry (.demand 2)).2.world.entries.map
        (fun entry => (Pass.run entry.1 entry.2).1) = [.ok false, .ok false] := by
      cbv
    intro entry mem
    have outcome : (Pass.run entry.1 entry.2).1 ∈ [.ok false, .ok false] :=
      entered ▸ List.mem_map.2 ⟨entry, mem, rfl⟩
    exact ⟨false, by simpa using outcome⟩
  refine ⟨accepted_winding, reachable, ?_, ?_, reported, walk, isPath, circle⟩
  · exact (demands 0 _ (.demandNamed "a") rfl rfl .byName).1 loop
  · exact ((demands 2 _ (.demand 2) rfl rfl .byNumber).2 acyclic).2 bounded sound

end Session

end PassScheduler
