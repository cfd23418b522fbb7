import PassScheduler.Proofs.Schedule.Circularity
import PassScheduler.Proofs.Standard.Refinement
import PassScheduler.Proofs.Standard.Trust
import PassScheduler.Proofs.Transform.Potential
import PassScheduler.Proofs.Transform.WellFormedness

/-!
Contract: on a program that keeps all rules every demand of a standard pass is answered, and the
answer is true.

A demand answers for the demanded pass alone. That is all there is to tell, because whatever a
standard pass requires is an analysis.

Owns:
- what an answer means for a program, `Progress`, and that the answer of every pass means it;
- that no transformation fails on a program that `verify` accepts, or makes it unacceptable;
- the sound sessions, and that every step keeps them sound;
- that no demand of a sound session fails.

Does not own: demands of several passes.
-/

open Relation (ReflTransGen)

namespace PassScheduler.StandardPass

/-! ## Single passes -/

/-- What it means that something, or nothing, has changed: the program has become lighter, or it
has the same functions. -/
inductive Progress (before after : Program) : Bool → Prop where
  | unchanged (same : after.functions = before.functions) : Progress before after false
  | lighter (less : after.potential < before.potential) : Progress before after true

theorem potential_congr {first second : Program} (same : first.functions = second.functions) :
    first.potential = second.potential := by
  rw [first.potential_eq, second.potential_eq, same]

theorem Progress.potential_le {before after : Program} {changed : Bool}
    (progress : Progress before after changed) :
    after.potential ≤ before.potential := by
  cases progress with
  | unchanged same => exact (potential_congr same).le
  | lighter less => exact less.le

theorem Progress.trans {before between after : Program} {first second : Bool}
    (earlier : Progress before between first) (later : Progress between after second) :
    Progress before after (first || second) := by
  cases earlier with
  | unchanged same =>
      cases later with
      | unchanged sameAgain => exact .unchanged (sameAgain.trans same)
      | lighter less => exact .lighter (potential_congr same ▸ less)
  | lighter less => exact .lighter (later.potential_le.trans_lt less)

section Apply

variable {program after : Program}

theorem runTransform_progress {edit : Function → Edited Function}
    (lightens : Lightens Function.potential edit) {changed : Bool}
    (ran : runTransform edit program = (.ok changed, after)) :
    Progress program after changed := by
  cases ran
  rcases lightens.each program.functions with same | ⟨reported, lighter⟩
  · simp only [same]
    exact .unchanged rfl
  · simp only [reported]
    refine .lighter ?_
    rw [Program.potential_eq, Program.potential_eq]
    exact lighter

/-- A pass that reports a change has made the program lighter, and one that reports none has left
the functions as they were. -/
theorem apply_progress {runner : StandardPass} {changed : Bool}
    (ran : runner.apply program = (.ok changed, after)) :
    Progress program after changed := by
  cases runner with
  | verify =>
      have same := (apply_frame ran (.inl rfl)).1
      have verified : runVerify program = (.ok changed, after) := ran
      unfold runVerify at verified
      split at verified
      · cases verified
      · cases verified
        exact .unchanged same
  | liveness =>
      cases ran
      exact .unchanged rfl
  | constFold => exact runTransform_progress Edit.foldConstants_lightens ran
  | simplifyBranches => exact runTransform_progress Edit.simplifyBranches_lightens ran
  | algebraicSimplify => exact runTransform_progress Edit.simplifyOps_lightens ran
  | deadCodeElim =>
      have dropped : runDeadCodeElim program = (.ok changed, after) := ran
      unfold runDeadCodeElim at dropped
      split at dropped
      · exact runTransform_progress (Edit.dropDead_lightens _) dropped
      · cases dropped

/-- A pass that finds no broken rule, and true live values if it goes by them, breaks no rule. -/
theorem apply_unbroken {runner : StandardPass} {result : Except PassError Bool}
    (ran : runner.apply program = (result, after))
    (unbroken : firstViolation? [] program.functions = none) (live : FindsLive runner program) :
    firstViolation? [] after.functions = none := by
  cases runner with
  | verify =>
      rw [(apply_frame ran (.inl rfl)).1]
      exact unbroken
  | liveness =>
      cases ran
      exact unbroken
  | constFold =>
      rw [apply_constFold] at ran
      cases ran
      exact firstViolation?_map unbroken
        (fun function _ wellFormed => (function.foldConstants_spec wellFormed.definitions).1)
        fun _ _ wellFormed => wellFormed.foldConstants
  | simplifyBranches =>
      rw [apply_simplifyBranches] at ran
      cases ran
      exact firstViolation?_map unbroken (fun _ _ _ => rfl)
        fun _ _ wellFormed => wellFormed.simplifyBranches
  | algebraicSimplify =>
      rw [apply_algebraicSimplify] at ran
      cases ran
      exact firstViolation?_map unbroken (fun _ _ _ => rfl)
        fun _ _ wellFormed => wellFormed.simplifyOps
  | deadCodeElim =>
      rw [apply_deadCodeElim (live rfl)] at ran
      cases ran
      have names := (firstViolation?_eq_none.1 unbroken).1
      exact firstViolation?_map unbroken (fun function _ _ => function.name_dropDead _)
        fun _ member wellFormed => wellFormed.dropDead (LiveSets.values?_ofFunctions names member)

theorem apply_ne_error {runner : StandardPass} {cause : PassError}
    (unbroken : firstViolation? [] program.functions = none) (live : FindsLive runner program) :
    runner.apply program ≠ (.error cause, after) := by
  intro ran
  rcases apply_error ran with ⟨_, broken, _⟩ | ⟨isLast, noneKept, _⟩
  · exact broken unbroken
  · cases (live isLast).symm.trans noneKept

theorem verified_of_unbroken (unbroken : firstViolation? [] program.functions = none) :
    (verify.apply program).1 = .ok false := by
  show (runVerify program).1 = .ok false
  unfold runVerify
  rw [unbroken]

/-- A pass that is answered and leaves a program that `verify` accepts. -/
def LeavesVerified (runner : StandardPass) (program : Program) : Prop :=
  ∃ changed after, runner.apply program = (.ok changed, after) ∧
    (verify.apply after).1 = .ok false

theorem leavesVerified {runner : StandardPass}
    (unbroken : firstViolation? [] program.functions = none) (live : FindsLive runner program) :
    runner.LeavesVerified program := by
  cases ran : runner.apply program with
  | mk result after =>
      cases result with
      | error cause => exact absurd ran (apply_ne_error unbroken live)
      | ok changed =>
          exact ⟨changed, after, ran, verified_of_unbroken (apply_unbroken ran unbroken live)⟩

/-- A program that `verify` accepts passes every transformation and is still accepted, if what is
dropped as dead is so by live values that are those of its functions. -/
theorem transformation_leavesVerified (verified : (verify.apply program).1 = .ok false) :
    constFold.LeavesVerified program ∧ simplifyBranches.LeavesVerified program ∧
      algebraicSimplify.LeavesVerified program ∧
      (program.liveSets? = some (.ofFunctions program.functions) →
        deadCodeElim.LeavesVerified program) := by
  have unbroken := firstViolation?_of_verified verified
  refine ⟨leavesVerified unbroken ?_, leavesVerified unbroken ?_, leavesVerified unbroken ?_, ?_⟩
  · rintro ⟨⟩
  · rintro ⟨⟩
  · rintro ⟨⟩
  · exact fun live => leavesVerified unbroken fun _ => live

/-- A loop whose condition and counter need each other, and a product that nobody needs. -/
def countdown : Function where
  name := "main"
  params := [⟨0⟩]
  blocks := [
    ⟨"entry", [⟨⟨1⟩, .binary .sub (.value ⟨2⟩) (.imm 1)⟩, ⟨⟨2⟩, .copy (.value ⟨1⟩)⟩,
      ⟨⟨3⟩, .binary .mul (.value ⟨0⟩) (.imm 0)⟩], .br (.value ⟨2⟩) "entry" "exit"⟩,
    ⟨"exit", [], .ret (.value ⟨0⟩)⟩]

theorem transformation_leavesVerified_countdown :
    let program := (liveness.apply (.ofFunctions [countdown])).2
    (verify.apply program).1 = .ok false ∧
      program.liveSets? = some (.ofFunctions program.functions) ∧
      algebraicSimplify.LeavesVerified program ∧ deadCodeElim.LeavesVerified program := by
  intro program
  have verified : (verify.apply program).1 = .ok false := by cbv
  have live : program.liveSets? = some (.ofFunctions program.functions) :=
    ResultTable.get?_insert_self _ _ _
  obtain ⟨_, _, simplified, dropped⟩ := transformation_leavesVerified verified
  exact ⟨verified, live, simplified, dropped live⟩

end Apply

/-! ## What standard passes require -/

/-- A standard pass requires analyses that were registered before it. -/
theorem requires_cases {id next : PassId} (requires : standard.Requires id next) :
    (next = verifyId ∨ next = livenessId) ∧ next < id := by
  have each : ∀ id < standard.size, ∀ next ∈ standard.requirements id,
      (next = verifyId ∨ next = livenessId) ∧ next < id := by
    decide
  by_cases inside : id < standard.size
  · exact each id inside next requires
  · have unknown : standard.requirements id = [] := by
      simp [Registry.requirements, Registry.pass?, List.getElem?_eq_none (Nat.not_lt.1 inside)]
    rw [Registry.Requires, unknown] at requires
    cases requires

theorem grounded_standard (id : PassId) : Search.Grounded standard.Requires id := by
  induction id using Nat.strong_induction_on with
  | _ id inductionHypothesis =>
      exact .of_edges fun next requires => inductionHypothesis next (requires_cases requires).2

theorem length_chain_le {chain : List PassId} {id : PassId} (starts : chain.head? = some id)
    (steps : chain.IsChain standard.Requires) :
    chain.length ≤ id + 1 := by
  induction chain generalizing id with
  | nil => exact Nat.zero_le _
  | cons first rest inductionHypothesis =>
      obtain rfl : first = id := by simpa using starts
      cases rest with
      | nil => simp
      | cons second others =>
          obtain ⟨requires, stepsOfRest⟩ := List.isChain_cons_cons.1 steps
          have shorter := inductionHypothesis rfl stepsOfRest
          exact Nat.succ_le_succ (shorter.trans (requires_cases requires).2)

/-! ## Sessions -/

/-- A session whose analyses may be trusted and whose program keeps all rules. -/
structure Sound (session : Session StandardPass Program) : Prop where
  tracked : Tracked session
  unbroken : firstViolation? [] session.world.functions = none

namespace Sound

variable {session : Session StandardPass Program}

theorem findsLive (sound : Sound session) {id : PassId} {runner : StandardPass}
    (isPass : all[id]? = some runner)
    (fresh : ∀ other, standard.Requires id other → standard.isAnalysis other →
      session.isValid other) :
    FindsLive runner session.world := by
  rintro rfl
  exact live_of_fresh sound.tracked isPass fresh

theorem stepped {after : Session StandardPass Program} (sound : Sound session)
    (stepped : Session.Step standard session after) :
    Sound after := by
  refine ⟨sound.tracked.stepped stepped, ?_⟩
  cases stepped with
  | executed executed =>
      cases (applied executed sound.tracked.bound).1 with
      | refused => exact sound.unbroken
      | failed isPass fresh ran =>
          exact apply_unbroken ran sound.unbroken (sound.findsLive isPass fresh)
      | ran isPass fresh ran =>
          exact apply_unbroken ran sound.unbroken (sound.findsLive isPass fresh)
  | _ => exact sound.unbroken

theorem steps {after : Session StandardPass Program} (sound : Sound session)
    (steps : ReflTransGen (Session.Step standard) session after) :
    Sound after :=
  Session.kept_of_steps steps (fun _ _ stepped held => held.stepped stepped) sound

/-- No pass that is entered fails. -/
theorem not_failed (sound : Sound session) {id : PassId} {name : String} {cause : PassError}
    {after : Session StandardPass Program} :
    ¬ Session.Executed standard session id (.error (.passFailed name cause), after) := by
  intro executed
  cases executed with
  | failed found fresh ran =>
      obtain ⟨runner, isPass, outcome, _⟩ := runPass_eq sound.tracked.bound found ran
      exact apply_ne_error sound.unbroken (sound.findsLive isPass fresh) outcome

end Sound

/-- The answer of an execution is that of the pass. -/
theorem executed_progress {session : Session StandardPass Program} {id : PassId}
    {attempt : Attempt StandardPass Program Bool} (bound : Bound session)
    (executed : Session.Executed standard session id attempt) {changed : Bool}
    (succeeded : attempt.1 = .ok changed) :
    Progress session.world attempt.2.world changed := by
  cases (applied executed bound).1 with
  | refused => cases succeeded
  | failed => cases succeeded
  | ran _ _ ran =>
      cases succeeded
      exact apply_progress ran

/-- The execution of an analysis leaves the functions as they are, however it ends. -/
theorem executed_analysis {session : Session StandardPass Program} {id : PassId}
    {attempt : Attempt StandardPass Program Bool} (bound : Bound session)
    (executed : Session.Executed standard session id attempt)
    (isAnalysis : id = verifyId ∨ id = livenessId) :
    attempt.2.world.functions = session.world.functions := by
  cases (applied executed bound).1 with
  | refused => rfl
  | failed _ _ ran => exact (apply_frame ran (.inr ⟨_, rfl⟩)).1
  | @ran runner _ after isPass _ ran =>
      rcases isAnalysis with rfl | rfl
      · obtain rfl : StandardPass.verify = runner := Option.some.inj isPass
        exact (apply_frame ran (.inl rfl)).1
      · obtain rfl : StandardPass.liveness = runner := Option.some.inj isPass
        have isAfter : (runLiveness session.world).2 = after.world := congrArg Prod.snd ran
        exact isAfter ▸ rfl

/-- Meeting prerequisites leaves the functions as they are, because all of them are analyses. -/
theorem functions_of_met {path pending : List PassId} {session : Session StandardPass Program}
    {attempt : Attempt StandardPass Program Unit}
    (met : Session.Met standard path pending session attempt) (bound : Bound session)
    (analyses : ∀ next ∈ pending, next = verifyId ∨ next = livenessId) :
    attempt.2.world.functions = session.world.functions := by
  have required : ∀ {id}, ∀ next ∈ standard.requirements id, next = verifyId ∨ next = livenessId :=
    fun next requires => (requires_cases requires).1
  induction met with
  | done => rfl
  | cached _ _ inductionHypothesis =>
      exact inductionHypothesis bound (List.forall_mem_cons.1 analyses).2
  | circular => rfl
  | tooDeep => rfl
  | blocked _ _ _ _ above => exact above bound required
  | failed _ _ _ aboveMet executed above =>
      have after := executed_analysis (bound.steps aboveMet.steps) executed
        (List.forall_mem_cons.1 analyses).1
      exact after.trans (above bound required)
  | ran _ _ _ aboveMet executed _ above rest =>
      obtain ⟨isAnalysis, others⟩ := List.forall_mem_cons.1 analyses
      have boundBetween := bound.steps aboveMet.steps
      have after := executed_analysis boundBetween executed isAnalysis
      have last := rest (applied executed boundBetween).2 others
      exact last.trans (after.trans (above bound required))

/-! ## Demands -/

/-- An attempt that is answered: it leaves a sound session, and its answer is true of the program
that it began with. -/
def Advances (before : Program) (attempt : Attempt StandardPass Program Bool) : Prop :=
  ∃ changed after, attempt = (.ok changed, after) ∧ Sound after ∧
    Progress before after.world changed

/-- No standard pass requires a circle or a long chain, so a demand fails only with a pass that was
entered. -/
theorem passFailed_of_standard {session : Session StandardPass Program} {id : PassId}
    (fits : session.Fits standard) (inside : id < standard.size) {error : ScheduleError}
    (failed : (session.demand standard id).1 = .error error) :
    ∃ pass cause, error = .passFailed pass cause := by
  have isPass : standard.descriptor? id = some standard.passes[id].descriptor := by
    rw [Registry.descriptor?, Registry.pass?, List.getElem?_eq_getElem inside]
    rfl
  have acyclic := Registry.not_circular_of_grounded (grounded_standard id)
  have bounded : ∀ chain : List PassId, chain.head? = some id →
      chain.IsChain standard.Requires → chain.length ≤ maxDepth := by
    intro chain starts steps
    have short : chain.length ≤ 6 := (length_chain_le starts steps).trans inside
    exact short.trans (by decide)
  exact Session.passFailed_of_demand accepted_standard fits isPass acyclic bounded failed

/-- The answer of a demand is that of the demanded pass, whatever is valid. -/
theorem demand_progress {session : Session StandardPass Program} {id : PassId}
    (bound : Bound session) {changed : Bool}
    (succeeded : (session.demand standard id).1 = .ok changed) :
    Progress session.world (session.demand standard id).2.world changed := by
  have demanded := Session.demanded standard session id
  generalize session.demand standard id = attempt at demanded succeeded
  cases demanded with
  | unknown => cases succeeded
  | skipped =>
      cases succeeded
      exact .unchanged rfl
  | cached =>
      cases succeeded
      exact .unchanged rfl
  | blocked => cases succeeded
  | @ran descriptor between _ _ _ _ met executed =>
      have noted : Bound (session.note (.demanded descriptor.name)) := bound
      have same := functions_of_met met noted fun next requires => (requires_cases requires).1
      have prepared : Progress session.world between.world false := .unchanged same
      exact prepared.trans (executed_progress (noted.steps met.steps) executed succeeded)

namespace Sound

variable {session : Session StandardPass Program} {id : PassId}

theorem demand_ne_error (sound : Sound session) (inside : id < standard.size)
    (error : ScheduleError) :
    (session.demand standard id).1 ≠ .error error := by
  intro failed
  obtain ⟨pass, cause, rfl⟩ := passFailed_of_standard sound.tracked.fits inside failed
  cases (Session.demanded standard session id).cause failed with
  | execution steps executed => exact (sound.steps steps).not_failed executed

theorem demand (sound : Sound session) (inside : id < standard.size) :
    Advances session.world (session.demand standard id) := by
  cases answered : session.demand standard id with
  | mk result after =>
      have isResult : (session.demand standard id).1 = result := by rw [answered]
      have isAfter : (session.demand standard id).2 = after := by rw [answered]
      cases result with
      | error error => exact absurd isResult (sound.demand_ne_error inside error)
      | ok changed =>
          refine ⟨changed, after, rfl, ?_, ?_⟩
          · exact isAfter ▸ sound.steps (Session.demanded standard session id).steps
          · exact isAfter ▸ demand_progress sound.tracked.bound isResult

end Sound

end PassScheduler.StandardPass
