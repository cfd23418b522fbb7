import PassScheduler.Proofs.Schedule.Failure
import PassScheduler.Proofs.Schedule.Observation
import PassScheduler.Proofs.Standard.Session

/-!
Contract: what a valid analysis says of the program is true.

Results are never taken out of a program when they go stale, so a program can hold live values of
functions that it had before. While `liveness` is valid they are those of its functions, and while
`verify` is valid the functions keep all rules.

Owns:
- why a standard pass fails;
- that every step keeps both;
- that `dead-code-elim` finds true live values whenever it is entered, and that no pass ever misses
  an analysis.

Does not own: what the passes do to the functions.
-/

open Relation (ReflTransGen)

namespace PassScheduler.StandardPass

/-! ## Single passes -/

section Apply

variable {program after : Program}

/-- A standard pass fails if it is `verify` and finds a broken rule, or if it is `deadCodeElim` and
finds no live values. -/
theorem apply_error {runner : StandardPass} {cause : PassError}
    (ran : runner.apply program = (.error cause, after)) :
    (runner = .verify ∧ firstViolation? [] program.functions ≠ none ∧
        ∃ function message, cause = .malformed function message) ∨
      (runner = .deadCodeElim ∧ program.liveSets? = none ∧ after = program) := by
  cases runner with
  | verify =>
      have verified : runVerify program = (.error cause, after) := ran
      unfold runVerify at verified
      split at verified
      · rename_i function violation broken
        cases verified
        exact .inl ⟨rfl, by simp [broken], function, violation.message, rfl⟩
      · cases verified
  | deadCodeElim =>
      have dropped : runDeadCodeElim program = (.error cause, after) := ran
      unfold runDeadCodeElim at dropped
      split at dropped
      · cases dropped
      · rename_i noneKept
        cases dropped
        exact .inr ⟨rfl, noneKept, rfl⟩
  | _ => cases ran

theorem runVerify_ok {changed : Bool} (ran : runVerify program = (.ok changed, after)) :
    firstViolation? [] after.functions = none ∧ after.isMarkedVerified := by
  unfold runVerify at ran
  split at ran
  · cases ran
  · rename_i unbroken
    cases ran
    exact ⟨unbroken, congrArg Option.isSome (program.results.get?_insert_self .verified ())⟩

theorem isMarkedVerified_runLiveness :
    (runLiveness program).2.isMarkedVerified = program.isMarkedVerified := by
  have distinct : AnalysisKind.liveness ≠ .verified := by decide
  exact congrArg Option.isSome (program.results.get?_insert_of_ne distinct _)

end Apply

/-! ## Sessions -/

variable {session : Session StandardPass Program}

/-- While `verify` is valid, the functions keep all rules and the program is marked. -/
def KeepsVerified (session : Session StandardPass Program) : Prop :=
  session.isValid verifyId →
    firstViolation? [] session.world.functions = none ∧ session.world.isMarkedVerified

/-- What valid analyses say of the program is true. -/
structure Trusted (session : Session StandardPass Program) : Prop where
  tracked : Tracked session
  keepsVerified : KeepsVerified session

/-- What `dead-code-elim` has to find: live values that are those of the functions. -/
def FindsLive (runner : StandardPass) (found : Program) : Prop :=
  runner = deadCodeElim → found.liveSets? = some (.ofFunctions found.functions)

theorem Trusted.findsLive (trusted : Trusted session) {id : PassId}
    {pass : ResolvedPass StandardPass} (found : standard.pass? id = some pass)
    (fresh : ∀ other, standard.Requires id other → standard.isAnalysis other →
      session.isValid other) :
    FindsLive (session.obtain id pass).1.bound session.world := by
  intro isLast
  have isRunner := (trusted.tracked.bound.obtain found).1
  rw [isLast] at isRunner
  exact live_of_fresh trusted.tracked isRunner fresh

theorem Trusted.executed {id : PassId} {attempt : Attempt StandardPass Program Bool}
    (trusted : Trusted session) (executed : Session.Executed standard session id attempt) :
    Trusted attempt.2 := by
  refine ⟨trusted.tracked.executed executed, ?_⟩
  intro valid
  cases (applied executed trusted.tracked.bound).1 with
  | refused => exact trusted.keepsVerified valid
  | @failed runner cause error after isPass _ ran =>
      rw [Session.isValid, executed.validity_of_error rfl] at valid
      obtain ⟨unbroken, marked⟩ := trusted.keepsVerified valid
      rcases apply_error ran with ⟨_, broken, _⟩ | ⟨_, _, sameProgram⟩
      · exact absurd unbroken broken
      · show firstViolation? [] after.world.functions = none ∧ after.world.isMarkedVerified
        rw [sameProgram]
        exact ⟨unbroken, marked⟩
  | @ran runner changed after isPass _ ran =>
      show firstViolation? [] after.world.functions = none ∧ after.world.isMarkedVerified
      rcases (executed.isValid_of_ok trusted.tracked.fits rfl verifyId).1 valid with
        ⟨isRunner, _⟩ | ⟨_, wasValid, spared⟩
      · obtain rfl : StandardPass.verify = runner := by
          rw [← isRunner] at isPass
          exact Option.some.inj isPass
        exact runVerify_ok ran
      · -- A run that spares `verify` is of an analysis, and neither of the two changes a function.
        obtain ⟨unbroken, marked⟩ := trusted.keepsVerified wasValid
        cases runner with
        | verify => exact runVerify_ok ran
        | liveness =>
            have isAfter : (runLiveness session.world).2 = after.world := congrArg Prod.snd ran
            rw [← isAfter, isMarkedVerified_runLiveness]
            exact ⟨unbroken, marked⟩
        | _ => exact absurd (mem_stale_of_transformation isPass rfl .refl) spared

theorem Trusted.stepped {before after : Session StandardPass Program} (trusted : Trusted before)
    (stepped : Session.Step standard before after) :
    Trusted after := by
  have tracked := trusted.tracked.stepped stepped
  cases stepped with
  | executed executed => exact trusted.executed executed
  | reset => exact ⟨tracked, fun valid => absurd valid (before.not_isValid_reset verifyId)⟩
  | _ => exact ⟨tracked, trusted.keepsVerified⟩

theorem trusted_start (level : Level) (program : Program) :
    Trusted (.start standard level program) :=
  ⟨tracked_start level program,
    fun valid => absurd valid (Session.not_isValid_start standard level program verifyId)⟩

/-- A pass with a number is found by its name. -/
theorem Tracked.eq_of_name (tracked : Tracked session) {id other : PassId}
    (valid : session.isValid id) (inside : other < standard.size)
    (sameName : standard.name id = standard.name other) :
    id = other := by
  have isInside : id < standard.size := tracked.fits ▸ ValiditySet.lt_of_isValid valid
  exact accepted_standard.resolved.name_injective isInside inside sameName

/-- No standard pass that runs after its prerequisites misses an analysis. -/
theorem Tracked.not_missing (tracked : Tracked session) {id : PassId}
    {after : Session StandardPass Program} {name analysis : String} :
    ¬ Session.Executed standard session id
      (.error (.passFailed name (.missingAnalysis analysis)), after) := by
  intro executed
  cases executed with
  | failed found fresh ran =>
      obtain ⟨runner, isPass, outcome, _⟩ := runPass_eq tracked.bound found ran
      rcases apply_error outcome with ⟨_, _, _, _, isMalformed⟩ | ⟨rfl, noneKept, _⟩
      · cases isMalformed
      · rw [live_of_fresh tracked isPass fresh] at noneKept
        cases noneKept

/-- After any requests to a session over the standard passes, a valid `liveness` stands for live
values that are those of the functions, and a valid `verify` for functions that keep all rules and
are marked. On the way, `dead-code-elim` found true live values whenever it was entered, as is seen
by observing the program, which changes nothing; and no request fails for want of an analysis. -/
theorem performAll_trusted {registry : Registry StandardPass}
    (built : StandardPass.registry = .ok registry) (level : Level) (program : Program)
    (requests : List Request) :
    let session := (Session.start registry level program).performAll registry requests
    let observed := (Session.start registry level (Observed.ofWorld program)).performAll registry
      requests
    (∀ id, registry.name id = liveness.name → session.isValid id →
        session.world.liveSets? = some (.ofFunctions session.world.functions)) ∧
      (∀ id, registry.name id = verify.name → session.isValid id →
        firstViolation? [] session.world.functions = none ∧ session.world.isMarkedVerified) ∧
      observed.viewed Observed.world = session ∧
      (∀ entry ∈ observed.world.entries, entry.1 = deadCodeElim →
        entry.2.liveSets? = some (.ofFunctions entry.2.functions)) ∧
      ∀ request name analysis, (session.perform registry request).1 ≠
        .error (.passFailed name (.missingAnalysis analysis)) := by
  obtain rfl : standard = registry := Except.ok.inj (registry_eq.symm.trans built)
  intro session observed
  have steps : ReflTransGen (Session.Step standard) (.start standard level program) session :=
    Session.steps_of_moves (Session.moves_performAll _ requests)
  have trusted : Trusted session :=
    Session.kept_of_steps steps (fun _ _ stepped held => held.stepped stepped)
      (trusted_start level program)
  have observedSteps : ReflTransGen (Session.Step standard)
      (.start standard level (Observed.ofWorld program)) observed :=
    Session.steps_of_moves (Session.moves_performAll _ requests)
  have entries := Observed.entries_of_steps (fun _ _ stepped held => Trusted.stepped held stepped)
    (fun _ _ _ held found fresh => Trusted.findsLive held found fresh) observedSteps
    (trusted_start level program) (by simp [Session.start, Observed.ofWorld])
  refine ⟨?_, ?_, ?_, entries.2, ?_⟩
  · intro id isLiveness valid
    obtain rfl := trusted.tracked.eq_of_name valid (by decide : livenessId < standard.size)
      isLiveness
    exact trusted.tracked.keepsLive valid
  · intro id isVerify valid
    obtain rfl := trusted.tracked.eq_of_name valid (by decide : verifyId < standard.size) isVerify
    exact trusted.keepsVerified valid
  · exact (Session.performAll_viewed Observed.isView
      (.start standard level (Observed.ofWorld program)) requests).symm
  · intro request name analysis failed
    cases Session.cause_of_perform failed with
    | execution more executed =>
        have between := Session.kept_of_steps more
          (fun _ _ stepped held => Trusted.stepped held stepped) trusted
        exact between.tracked.not_missing executed

/-- A program that comes with live values which are not those of its function. -/
def misjudged : Program where
  functions := [⟨"main", [], [⟨"entry", [⟨⟨0⟩, .const 1⟩], .ret (.imm 0)⟩]⟩]
  results := ResultTable.empty.insert .liveness ⟨[("main", [⟨0⟩])]⟩

theorem performAll_trusted_misjudged :
    registry = .ok standard ∧
      misjudged.liveSets? ≠ some (.ofFunctions misjudged.functions) ∧
      let session := (Session.start standard 1 misjudged).performAll standard
        [.demandNamed "liveness"]
      session.isValid livenessId ∧
        session.world.liveSets? = some (.ofFunctions session.world.functions) := by
  have stale : misjudged.liveSets? ≠ some (.ofFunctions misjudged.functions) := by
    intro same
    have values : (LiveSets.ofFunctions misjudged.functions).sets = [("main", [])] := by cbv
    rw [← Option.some.inj same] at values
    exact absurd values (by decide)
  have valid : ((Session.start standard 1 misjudged).performAll standard
      [.demandNamed "liveness"]).isValid livenessId = true := by
    cbv
  have isLiveness : standard.name livenessId = liveness.name := by decide
  have trusted := performAll_trusted registry_eq 1 misjudged [.demandNamed "liveness"]
  exact ⟨registry_eq, stale, valid, trusted.1 livenessId isLiveness valid⟩

end PassScheduler.StandardPass
