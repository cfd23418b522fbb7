import PassScheduler.Proofs.Standard.Progress

/-!
Contract: the level and the functions alone tell what a demand of a standard pass comes to.

Which analyses are valid makes no difference. A valid analysis vouches for the functions, and where
none is valid `verify` runs before anything that could change a function.

Owns:
- `outcome`, which tells the answer of a demand and the functions that it leaves;
- vouched sessions, in which only analyses are valid and the functions keep all rules while any of
  them is, and that every step keeps them so;
- that every demand of a vouched session has its outcome.

Does not own: what else a demand leaves in a session.
-/

open Relation (ReflTransGen)

namespace PassScheduler.StandardPass

/-! ## Outcomes -/

/-- What a pass makes of functions that keep all rules. -/
def effect (runner : StandardPass) (functions : List Function) : List Function :=
  match runner with
  | .verify | .liveness => functions
  | .constFold => functions.map Function.foldConstants
  | .simplifyBranches => functions.map Function.simplifyBranches
  | .algebraicSimplify => functions.map Function.simplifyOps
  | .deadCodeElim => functions.map (Function.dropDead (.ofFunctions functions))

/-- The error in which the first broken rule of some functions is reported. -/
def violationError (function : String) (violation : Violation) : ScheduleError :=
  .passFailed verify.name (.malformed function violation.message)

/-- What a demand of a pass that takes part comes to: the first broken rule is reported, or else
the pass does its work. -/
def answer (runner : StandardPass) (functions : List Function) :
    Except ScheduleError Bool × List Function :=
  match firstViolation? [] functions with
  | some (function, violation) => (.error (violationError function violation), functions)
  | none => (.ok (runner.effect functions ≠ functions), runner.effect functions)

/-- What a demand comes to. -/
def outcome (level : Level) (id : PassId) (functions : List Function) :
    Except ScheduleError Bool × List Function :=
  match all[id]? with
  | none => (.error (.unknownPass (unissuedName id)), functions)
  | some runner =>
      if runner.descriptor.isEnabledAt level then runner.answer functions
      else (.ok false, functions)

/-- What can be seen of an attempt without looking at analyses. -/
def visible (attempt : Attempt StandardPass Program Bool) :
    Except ScheduleError Bool × List Function :=
  (attempt.1, attempt.2.world.functions)

theorem answer_of_broken {runner : StandardPass} {functions : List Function} {function : String}
    {violation : Violation} (broken : firstViolation? [] functions = some (function, violation)) :
    runner.answer functions = (.error (violationError function violation), functions) := by
  unfold answer
  rw [broken]

theorem answer_of_unbroken {runner : StandardPass} {functions : List Function}
    (unbroken : firstViolation? [] functions = none) :
    runner.answer functions =
      (.ok (runner.effect functions ≠ functions), runner.effect functions) := by
  unfold answer
  rw [unbroken]

/-! ## Single passes -/

section Apply

variable {runner : StandardPass} {program after : Program}

theorem apply_eq_effect (unbroken : firstViolation? [] program.functions = none)
    (live : FindsLive runner program) :
    (runner.apply program).1 = .ok (runner.effect program.functions ≠ program.functions) ∧
      (runner.apply program).2.functions = runner.effect program.functions := by
  cases runner with
  | verify =>
      show (runVerify program).1 = _ ∧ (runVerify program).2.functions = _
      unfold runVerify
      rw [unbroken]
      simp [effect]
  | liveness => simp [apply, runLiveness, effect]
  | constFold =>
      rw [apply_constFold]
      exact ⟨rfl, rfl⟩
  | simplifyBranches =>
      rw [apply_simplifyBranches]
      exact ⟨rfl, rfl⟩
  | algebraicSimplify =>
      rw [apply_algebraicSimplify]
      exact ⟨rfl, rfl⟩
  | deadCodeElim =>
      rw [apply_deadCodeElim (live rfl)]
      exact ⟨rfl, rfl⟩

theorem runVerify_error {cause : PassError} (ran : runVerify program = (.error cause, after)) :
    ∃ function violation, firstViolation? [] program.functions = some (function, violation) ∧
      cause = .malformed function violation.message := by
  unfold runVerify at ran
  split at ran
  · rename_i function violation broken
    cases ran
    exact ⟨function, violation, broken, rfl⟩
  · cases ran

/-- A pass that finds true live values fails only by reporting the first broken rule. -/
theorem apply_error_of_live {cause : PassError} (ran : runner.apply program = (.error cause, after))
    (live : FindsLive runner program) :
    runner = .verify ∧ ∃ function violation,
      firstViolation? [] program.functions = some (function, violation) ∧
        cause = .malformed function violation.message := by
  rcases apply_error ran with ⟨rfl, _, _⟩ | ⟨isLast, noneKept, _⟩
  · exact ⟨rfl, runVerify_error ran⟩
  · cases (live isLast).symm.trans noneKept

end Apply

/-! ## The registry -/

section Numbers

variable {id : PassId} {runner : StandardPass}

theorem descriptor?_eq (isPass : all[id]? = some runner) :
    standard.descriptor? id = some runner.descriptor := by
  have described : resolved.map (fun pass => pass.descriptor) = all.map descriptor := rfl
  show resolved[id]?.map (fun pass => pass.descriptor) = some runner.descriptor
  rw [← List.getElem?_map, described, List.getElem?_map, isPass]
  rfl

theorem descriptor?_eq_none (isPass : all[id]? = none) : standard.descriptor? id = none := by
  have outside : all.length ≤ id := List.getElem?_eq_none_iff.1 isPass
  have unknown : resolved[id]? = none := List.getElem?_eq_none_iff.2 outside
  simp [Registry.descriptor?, Registry.pass?, Registry.ofPasses, unknown]

theorem name_eq (isPass : all[id]? = some runner) : standard.name id = runner.name := by
  have named : ∀ runner : StandardPass, runner.descriptor.name = runner.name := by
    intro runner
    cases runner <;> rfl
  simp [Registry.name, descriptor?_eq isPass, named]

theorem isAnalysis_iff (isPass : all[id]? = some runner) :
    standard.isAnalysis id ↔ runner = .verify ∨ runner = .liveness := by
  have kinds : ∀ runner : StandardPass, runner.descriptor.isAnalysis = true ↔
      runner = .verify ∨ runner = .liveness := by
    intro runner
    cases runner <;> decide
  simp only [Registry.isAnalysis, descriptor?_eq isPass, Option.map_some, Option.getD_some, kinds]

/-- Every pass but `verify` requires an analysis. -/
theorem exists_required_analysis (isPass : all[id]? = some runner) (other : runner ≠ .verify) :
    ∃ analysis, standard.Requires id analysis ∧ standard.isAnalysis analysis := by
  have each : ∀ id < standard.size, id ≠ verifyId →
      ∃ analysis ∈ standard.requirements id, standard.isAnalysis analysis := by
    decide
  have notVerify : id ≠ verifyId := by
    rintro rfl
    exact other (Option.some.inj isPass).symm
  exact each id (List.getElem?_eq_some_iff.1 isPass).1 notVerify

end Numbers

/-! ## Vouched sessions -/

/-- A session in which only analyses are valid, and in which the functions keep all rules while any
of them is. -/
structure Vouched (session : Session StandardPass Program) : Prop where
  tracked : Tracked session
  isAnalysis : ∀ id, session.isValid id → standard.isAnalysis id
  unbroken : ∀ id, session.isValid id → firstViolation? [] session.world.functions = none

namespace Vouched

variable {session : Session StandardPass Program} {id : PassId} {runner : StandardPass}

theorem findsLive (vouched : Vouched session) (isPass : all[id]? = some runner)
    (fresh : ∀ other, standard.Requires id other → standard.isAnalysis other →
      session.isValid other) :
    FindsLive runner session.world := by
  rintro rfl
  exact live_of_fresh vouched.tracked isPass fresh

/-- What a pass requires vouches for the functions that it finds, and `verify` finds out itself. -/
theorem unbroken_of_fresh (vouched : Vouched session) (isPass : all[id]? = some runner)
    (fresh : ∀ other, standard.Requires id other → standard.isAnalysis other →
      session.isValid other)
    {changed : Bool} {after : Program}
    (ran : runner.apply session.world = (.ok changed, after)) :
    firstViolation? [] session.world.functions = none := by
  by_cases isVerify : runner = .verify
  · subst isVerify
    rw [← (apply_frame ran (.inl rfl)).1]
    exact (runVerify_ok ran).1
  · obtain ⟨analysis, requires, isAnalysis⟩ := exists_required_analysis isPass isVerify
    exact vouched.unbroken analysis (fresh analysis requires isAnalysis)

theorem executed {attempt : Attempt StandardPass Program Bool} (vouched : Vouched session)
    (executed : Session.Executed standard session id attempt) :
    Vouched attempt.2 := by
  have tracked := vouched.tracked.executed executed
  cases (applied executed vouched.tracked.bound).1 with
  | refused => exact vouched
  | @failed runner cause error after isPass _ ran =>
      have sameValid : ∀ other, after.isValid other → session.isValid other := by
        intro other valid
        rw [Session.isValid, executed.validity_of_error rfl] at valid
        exact valid
      refine ⟨tracked, fun other valid => vouched.isAnalysis other (sameValid other valid), ?_⟩
      intro other valid
      rw [(apply_frame ran (.inr ⟨_, rfl⟩)).1]
      exact vouched.unbroken other (sameValid other valid)
  | @ran runner changed after isPass fresh ran =>
      have unbroken := vouched.unbroken_of_fresh isPass fresh ran
      refine ⟨tracked, ?_, fun _ _ => apply_unbroken ran unbroken (vouched.findsLive isPass fresh)⟩
      intro other valid
      rcases (executed.isValid_of_ok vouched.tracked.fits rfl other).1 valid with
        ⟨rfl, isAnalysis⟩ | ⟨_, wasValid, _⟩
      · exact isAnalysis
      · exact vouched.isAnalysis other wasValid

theorem stepped {after : Session StandardPass Program} (vouched : Vouched session)
    (stepped : Session.Step standard session after) :
    Vouched after := by
  have tracked := vouched.tracked.stepped stepped
  cases stepped with
  | executed executed => exact vouched.executed executed
  | reset =>
      exact ⟨tracked, fun other valid => absurd valid (session.not_isValid_reset other),
        fun other valid => absurd valid (session.not_isValid_reset other)⟩
  | _ => exact ⟨tracked, vouched.isAnalysis, vouched.unbroken⟩

theorem steps {after : Session StandardPass Program} (vouched : Vouched session)
    (steps : ReflTransGen (Session.Step standard) session after) :
    Vouched after :=
  Session.kept_of_steps steps (fun _ _ stepped held => held.stepped stepped) vouched

end Vouched

theorem vouched_start (level : Level) (program : Program) :
    Vouched (.start standard level program) :=
  ⟨tracked_start level program,
    fun id valid => absurd valid (Session.not_isValid_start standard level program id),
    fun id valid => absurd valid (Session.not_isValid_start standard level program id)⟩

theorem Formed.vouched_reset {session : Session StandardPass Program} (formed : Formed session) :
    Vouched session.reset :=
  ⟨formed.tracked_reset, fun id valid => absurd valid (session.not_isValid_reset id),
    fun id valid => absurd valid (session.not_isValid_reset id)⟩

/-! ## Demands -/

/-- An error that reports the first broken rule of some functions. -/
def Reports (functions : List Function) (error : ScheduleError) : Prop :=
  ∃ function violation, firstViolation? [] functions = some (function, violation) ∧
    error = violationError function violation

namespace Vouched

variable {session : Session StandardPass Program} {id : PassId} {runner : StandardPass}

/-- An execution of a pass that fails reports the first broken rule. -/
theorem reports_of_executed {after : Session StandardPass Program} {name : String}
    {cause : PassError} (vouched : Vouched session)
    (executed : Session.Executed standard session id (.error (.passFailed name cause), after)) :
    Reports session.world.functions (.passFailed name cause) := by
  cases executed with
  | @failed pass _ _ found fresh ran =>
      obtain ⟨runner, isPass, outcome, _⟩ := runPass_eq vouched.tracked.bound found ran
      obtain ⟨rfl, function, violation, broken, rfl⟩ :=
        apply_error_of_live outcome (vouched.findsLive isPass fresh)
      refine ⟨function, violation, broken, ?_⟩
      rw [← Registry.name_of_pass? found, name_eq isPass]
      rfl

theorem reports_of_met {path pending : List PassId} {attempt : Attempt StandardPass Program Unit}
    (met : Session.Met standard path pending session attempt) (vouched : Vouched session)
    (analyses : ∀ next ∈ pending, next = verifyId ∨ next = livenessId) {name : String}
    {cause : PassError} (failed : attempt.1 = .error (.passFailed name cause)) :
    Reports session.world.functions (.passFailed name cause) := by
  have required : ∀ {id}, ∀ next ∈ standard.requirements id, next = verifyId ∨ next = livenessId :=
    fun next requires => (requires_cases requires).1
  induction met with
  | done => cases failed
  | cached valid _ inductionHypothesis =>
      have others := (List.forall_mem_cons.1 analyses).2
      exact inductionHypothesis (vouched.stepped (.cached valid)) others failed
  | circular => cases failed
  | tooDeep => cases failed
  | blocked _ _ _ _ above =>
      cases failed
      exact above vouched required rfl
  | failed _ _ _ aboveMet executed =>
      cases failed
      have same := functions_of_met aboveMet vouched.tracked.bound required
      rw [← same]
      exact (vouched.steps aboveMet.steps).reports_of_executed executed
  | ran _ _ _ aboveMet executed _ _ rest =>
      obtain ⟨isAnalysis, others⟩ := List.forall_mem_cons.1 analyses
      have between := vouched.steps aboveMet.steps
      have same := (executed_analysis between.tracked.bound executed isAnalysis).trans
        (functions_of_met aboveMet vouched.tracked.bound required)
      rw [← same]
      exact rest (between.executed executed) others failed

/-- What an execution comes to, if it is not refused. -/
theorem answer_of_executed {attempt : Attempt StandardPass Program Bool} (vouched : Vouched session)
    (isPass : all[id]? = some runner) (executed : Session.Executed standard session id attempt)
    (entered : ∀ error, attempt.1 = .error error → ∃ name cause, error = .passFailed name cause) :
    visible attempt = runner.answer session.world.functions := by
  obtain ⟨result, after⟩ := attempt
  cases result with
  | error error =>
      obtain ⟨name, cause, rfl⟩ := entered error rfl
      obtain ⟨function, violation, broken, isError⟩ := vouched.reports_of_executed executed
      have same : after.world.functions = session.world.functions := by
        cases (applied executed vouched.tracked.bound).1 with
        | refused => rfl
        | failed _ _ ran => exact (apply_frame ran (.inr ⟨_, rfl⟩)).1
      rw [answer_of_broken broken, visible, same, isError]
  | ok changed =>
      cases (applied executed vouched.tracked.bound).1 with
      | ran isRunner fresh ran =>
          cases isRunner.symm.trans isPass
          have unbroken := vouched.unbroken_of_fresh isPass fresh ran
          obtain ⟨isAnswer, functions⟩ :=
            apply_eq_effect unbroken (vouched.findsLive isPass fresh)
          rw [ran] at isAnswer functions
          have isChanged : changed = _ := Except.ok.inj isAnswer
          rw [answer_of_unbroken unbroken, visible, functions, isChanged]

/-- A demand of a pass that takes part meets what the pass requires without touching a function,
or finds the pass valid, which vouches for the functions. -/
theorem demand_answer (vouched : Vouched session) (isPass : all[id]? = some runner)
    (enabled : runner.descriptor.isEnabledAt session.level) :
    visible (session.demand standard id) = runner.answer session.world.functions := by
  have inside : id < standard.size := (List.getElem?_eq_some_iff.1 isPass).1
  have described := descriptor?_eq isPass
  have required : ∀ {id}, ∀ next ∈ standard.requirements id, next = verifyId ∨ next = livenessId :=
    fun next requires => (requires_cases requires).1
  have noted : ∀ name, Vouched (session.note (.demanded name)) :=
    fun name => vouched.stepped (.demanded session name)
  have entered : ∀ error, (session.demand standard id).1 = .error error →
      ∃ name cause, error = .passFailed name cause :=
    fun _ failed => passFailed_of_standard vouched.tracked.fits inside failed
  have demanded := Session.demanded standard session id
  generalize session.demand standard id = attempt at demanded entered
  cases demanded with
  | unknown missing => cases missing.symm.trans described
  | skipped found gated =>
      cases found.symm.trans described
      exact absurd enabled gated
  | cached _ _ valid =>
      have isIdle : runner.effect session.world.functions = session.world.functions := by
        rcases (isAnalysis_iff isPass).1 (vouched.isAnalysis id valid) with rfl | rfl <;> rfl
      rw [answer_of_unbroken (vouched.unbroken id valid), isIdle]
      simp [visible, Session.recordCached, Session.notice, Session.note, Session.record]
  | blocked _ _ _ met =>
      obtain ⟨name, cause, rfl⟩ := entered _ rfl
      obtain ⟨function, violation, broken, isError⟩ := reports_of_met met (noted _) required rfl
      have sameFunctions := functions_of_met met (noted _).tracked.bound required
      have isAnswer : runner.answer session.world.functions = _ := answer_of_broken broken
      rw [visible, sameFunctions, isError]
      exact isAnswer.symm
  | @ran _ between attempt _ _ _ met executed =>
      have sameFunctions : between.world.functions = session.world.functions :=
        functions_of_met met (noted _).tracked.bound required
      rw [← sameFunctions]
      exact ((noted _).steps met.steps).answer_of_executed isPass executed entered

/-- A demand has its outcome. -/
theorem demand_outcome (vouched : Vouched session) (id : PassId) :
    visible (session.demand standard id) =
      outcome session.level id session.world.functions := by
  unfold outcome
  cases isPass : all[id]? with
  | none =>
      simp [Session.demand, descriptor?_eq_none isPass, visible]
  | some runner =>
      dsimp only
      by_cases enabled : runner.descriptor.isEnabledAt session.level
      · rw [if_pos enabled]
        exact vouched.demand_answer isPass enabled
      · have demanded := Session.demanded standard session id
        rw [if_neg enabled]
        generalize session.demand standard id = attempt at demanded
        cases demanded with
        | unknown missing => cases missing.symm.trans (descriptor?_eq isPass)
        | skipped => rfl
        | cached found isEnabled | blocked found isEnabled | ran found isEnabled =>
            cases found.symm.trans (descriptor?_eq isPass)
            exact absurd isEnabled enabled

end Vouched

end PassScheduler.StandardPass
