import Mathlib.Tactic.IntervalCases
import PassScheduler.Proofs.Registry.Standard
import PassScheduler.Proofs.Schedule.Course

/-!
Contract: sessions over the standard passes run those passes, and keep live values that are true.

Owns:
- that every kept instance is the pass whose number it is kept under, so that a run of a pass is
  its `apply` on the program;
- that the live values of the program are those of its functions while `liveness` is valid, and so
  whenever `deadCodeElim` runs;
- that every step keeps both, and that the first is true of every reachable session.

Does not own: what the passes do to a program.
-/

open Relation (ReflTransGen)

namespace PassScheduler.StandardPass

/-- The registry of the standard passes. -/
abbrev standard : Registry StandardPass :=
  .ofPasses resolved

theorem accepted_standard : standard.Accepted :=
  accepted registry_eq

/-- The number of `verify`. -/
abbrev verifyId : PassId := 0

/-- The number of `liveness`. -/
abbrev livenessId : PassId := 1

theorem create_eq {id : PassId} {pass : ResolvedPass StandardPass}
    (found : standard.pass? id = some pass) (context : Context) :
    all[id]? = some (pass.create context) := by
  have made : resolved.map (fun pass => pass.create context) = all := rfl
  have isPass : resolved[id]? = some pass := found
  rw [← made, List.getElem?_map, isPass]
  rfl

/-! ## Instances -/

section Instances

variable {session after : Session StandardPass Program} {id : PassId}

/-- Every kept instance is the pass whose number it is kept under. -/
def Bound (session : Session StandardPass Program) : Prop :=
  ∀ id binding, session.binding? id = some binding → all[id]? = some binding.bound

theorem bound_of_none {count : Nat} (none : session.instances = List.replicate count none) :
    Bound session := by
  intro id binding isKept
  cases (Session.binding?_of_none none id).symm.trans isKept

theorem eq_or_kept_of_keep {binding : Binding StandardPass} {other : PassId}
    {kept : Binding StandardPass}
    (isKept : (session.keep id binding).binding? other = some kept) :
    (other = id ∧ kept = binding) ∨ session.binding? other = some kept := by
  rw [Session.binding?_keep] at isKept
  split at isKept
  · rename_i here
    exact .inl ⟨here.1.symm, (Option.some.inj isKept).symm⟩
  · exact .inr isKept

theorem Bound.keep (bound : Bound session) {binding : Binding StandardPass}
    (isPass : all[id]? = some binding.bound) :
    Bound (session.keep id binding) := by
  intro other kept isKept
  rcases eq_or_kept_of_keep isKept with ⟨rfl, rfl⟩ | wasKept
  · exact isPass
  · exact bound other kept wasKept

theorem Bound.obtain (bound : Bound session) {pass : ResolvedPass StandardPass}
    (found : standard.pass? id = some pass) :
    all[id]? = some (session.obtain id pass).1.bound ∧ Bound (session.obtain id pass).2 := by
  unfold Session.obtain
  cases isKept : session.binding? id with
  | some binding => exact ⟨bound id binding isKept, bound⟩
  | none =>
      have isPass := create_eq found ⟨pass.descriptor.name, session.level⟩
      have noted : Bound (session.note (.created ⟨pass.descriptor.name, session.level⟩)) := bound
      exact ⟨isPass, noted.keep isPass⟩

/-- The run of a pass is its `apply` on the program. -/
theorem runPass_eq (bound : Bound session) {pass : ResolvedPass StandardPass}
    (found : standard.pass? id = some pass) {result : Except PassError Bool}
    (ran : session.runPass id pass = (result, after)) :
    ∃ runner, all[id]? = some runner ∧ runner.apply session.world = (result, after.world) ∧
      Bound after := by
  obtain ⟨isPass, obtained⟩ := bound.obtain found
  obtain ⟨_, _, world⟩ := session.obtain_frame id pass
  let runner := (session.obtain id pass).1.bound
  let entered := (session.obtain id pass).2.note (.entered (session.obtain id pass).1.context)
  have noted : Bound entered := obtained
  have outcome : session.runPass id pass = ((runner.apply session.world).1,
      { entered.keep id { (session.obtain id pass).1 with bound := runner } with
        world := (runner.apply session.world).2 }) := by
    rw [← world]
    rfl
  rw [outcome, Prod.mk.injEq] at ran
  obtain ⟨rfl, rfl⟩ := ran
  exact ⟨runner, isPass, rfl, noted.keep isPass⟩

end Instances

/-! ## Runs -/

section Runs

variable {session : Session StandardPass Program} {id : PassId}
variable {attempt : Attempt StandardPass Program Bool}

/-- What an execution of a standard pass does to the program: nothing, if the pass cannot run, or
else what its `apply` does. -/
inductive Applied (session : Session StandardPass Program) (id : PassId) :
    Attempt StandardPass Program Bool → Prop where
  | refused {error : ScheduleError} : Applied session id (.error error, session)
  | failed {runner : StandardPass} {cause : PassError} {error : ScheduleError}
      {after : Session StandardPass Program} (isPass : all[id]? = some runner)
      (fresh : ∀ other, standard.Requires id other → standard.isAnalysis other →
        session.isValid other)
      (ran : runner.apply session.world = (.error cause, after.world)) :
      Applied session id (.error error, after)
  | ran {runner : StandardPass} {changed : Bool} {after : Session StandardPass Program}
      (isPass : all[id]? = some runner)
      (fresh : ∀ other, standard.Requires id other → standard.isAnalysis other →
        session.isValid other)
      (ran : runner.apply session.world = (.ok changed, after.world)) :
      Applied session id (.ok changed, after)

theorem applied (executed : Session.Executed standard session id attempt) (bound : Bound session) :
    Applied session id attempt ∧ Bound attempt.2 := by
  cases executed with
  | unknown => exact ⟨.refused, bound⟩
  | stale => exact ⟨.refused, bound⟩
  | failed found fresh ran =>
      obtain ⟨runner, isPass, outcome, boundAfter⟩ := runPass_eq bound found ran
      exact ⟨.failed isPass fresh outcome, boundAfter⟩
  | @ran pass changed after found fresh ran =>
      obtain ⟨runner, isPass, outcome, boundAfter⟩ := runPass_eq bound found ran
      let recorded := after.recordRan pass.descriptor.name changed
      obtain ⟨_, instances, world⟩ := recorded.conclude_frame standard id pass.descriptor.kind
      have sameWorld : (recorded.conclude standard id pass.descriptor.kind).world = after.world :=
        world
      refine ⟨.ran isPass fresh ?_, ?_⟩
      · rw [sameWorld]
        exact outcome
      · intro other binding isKept
        unfold Session.binding? at isKept
        rw [instances] at isKept
        exact boundAfter other binding isKept

theorem Bound.stepped {after : Session StandardPass Program} (bound : Bound session)
    (stepped : Session.Step standard session after) :
    Bound after := by
  cases stepped with
  | executed executed => exact (applied executed bound).2
  | setLevel level => exact bound_of_none rfl
  | _ => exact bound

theorem Bound.steps {after : Session StandardPass Program} (bound : Bound session)
    (steps : ReflTransGen (Session.Step standard) session after) :
    Bound after :=
  Session.kept_of_steps steps (fun _ _ stepped held => held.stepped stepped) bound

theorem bound_of_reachable (reachable : Session.Reachable standard session) : Bound session := by
  apply reachable.invariant
  · intro level program
    exact bound_of_none rfl
  · intro session program bound
    exact bound
  · intro before after moved bound
    exact bound.steps moved.steps

end Runs

/-! ## Live values -/

/-- While `liveness` is valid, the program keeps the live values of its functions. -/
def KeepsLive (session : Session StandardPass Program) : Prop :=
  session.isValid livenessId →
    session.world.liveSets? = some (.ofFunctions session.world.functions)

/-- A standard pass has one number. -/
theorem number_unique {id other : PassId} {runner : StandardPass}
    (isPass : all[id]? = some runner) (isOther : all[other]? = some runner) :
    id = other := by
  have inside : id < all.length := (List.getElem?_eq_some_iff.1 isPass).1
  have distinct : all.Nodup := by decide
  exact (List.getElem?_inj inside distinct).1 (isPass.trans isOther.symm)

/-- A transformation makes `verify` stale, and with it everything that requires it. -/
theorem mem_stale_of_transformation {id other : PassId} {runner : StandardPass}
    (isPass : all[id]? = some runner) (isTransformation : runner.descriptor.kind = .transformation)
    (reaches : ReflTransGen standard.Requires other verifyId) :
    other ∈ standard.stale id := by
  have inside : id < 6 := (List.getElem?_eq_some_iff.1 isPass).1
  rw [accepted_standard.resolved.mem_stale]
  interval_cases id
  · cases isPass
    cases isTransformation
  · cases isPass
    cases isTransformation
  · exact ⟨verifyId, List.mem_cons_self, reaches⟩
  · exact ⟨verifyId, List.mem_cons_self, reaches⟩
  · exact ⟨verifyId, List.mem_cons_self, reaches⟩
  · exact ⟨verifyId, List.mem_cons_self, reaches⟩

theorem liveness_mem_stale {id : PassId} {runner : StandardPass} (isPass : all[id]? = some runner)
    (isTransformation : runner.descriptor.kind = .transformation) :
    livenessId ∈ standard.stale id := by
  have requires : standard.Requires livenessId verifyId := List.mem_cons_self
  exact mem_stale_of_transformation isPass isTransformation (.single requires)

/-- `verify`, and a run that fails, leave functions and live values as they are. -/
theorem apply_frame {runner : StandardPass} {program after : Program}
    {result : Except PassError Bool} (ran : runner.apply program = (result, after))
    (harmless : runner = .verify ∨ ∃ cause, result = .error cause) :
    after.functions = program.functions ∧ after.liveSets? = program.liveSets? := by
  cases runner with
  | verify =>
      have distinct : AnalysisKind.verified ≠ .liveness := by decide
      have verified : runVerify program = (result, after) := ran
      unfold runVerify at verified
      split at verified
      · cases verified
        exact ⟨rfl, program.results.get?_erase_of_ne distinct⟩
      · cases verified
        exact ⟨rfl, program.results.get?_insert_of_ne distinct ()⟩
  | deadCodeElim =>
      have dropped : runDeadCodeElim program = (result, after) := ran
      unfold runDeadCodeElim at dropped
      split at dropped
      · cases dropped
        rcases harmless with isVerify | ⟨cause, failed⟩
        · cases isVerify
        · cases failed
      · cases dropped
        exact ⟨rfl, rfl⟩
  | _ =>
      cases ran
      rcases harmless with isVerify | ⟨cause, failed⟩
      · cases isVerify
      · cases failed

/-- What holds of a session over the standard passes between any two decisions. -/
structure Tracked (session : Session StandardPass Program) : Prop where
  fits : session.Fits standard
  bound : Bound session
  keepsLive : KeepsLive session

/-- The live values that a run of `deadCodeElim` finds are true. -/
theorem live_of_fresh {session : Session StandardPass Program} (tracked : Tracked session)
    {id : PassId} (isPass : all[id]? = some .deadCodeElim)
    (fresh : ∀ other, standard.Requires id other → standard.isAnalysis other →
      session.isValid other) :
    session.world.liveSets? = some (.ofFunctions session.world.functions) := by
  have isLast : id = 5 := number_unique isPass rfl
  have requires : standard.Requires id livenessId := by
    rw [isLast]
    exact List.mem_cons_self
  have isAnalysis : standard.isAnalysis livenessId := rfl
  exact tracked.keepsLive (fresh livenessId requires isAnalysis)

theorem Tracked.executed {session : Session StandardPass Program} {id : PassId}
    {attempt : Attempt StandardPass Program Bool} (tracked : Tracked session)
    (executed : Session.Executed standard session id attempt) :
    Tracked attempt.2 := by
  obtain ⟨applied, bound⟩ := applied executed tracked.bound
  refine ⟨executed.fits tracked.fits, bound, ?_⟩
  intro valid
  cases applied with
  | refused => exact tracked.keepsLive valid
  | failed isPass _ ran =>
      obtain ⟨functions, liveSets⟩ := apply_frame ran (.inr ⟨_, rfl⟩)
      rw [Session.isValid, executed.validity_of_error rfl] at valid
      rw [functions, liveSets]
      exact tracked.keepsLive valid
  | @ran runner changed after isPass _ ran =>
      show after.world.liveSets? = some (.ofFunctions after.world.functions)
      rcases (executed.isValid_of_ok tracked.fits rfl livenessId).1 valid with
        ⟨isRunner, _⟩ | ⟨isOther, wasValid, spared⟩
      · obtain rfl : StandardPass.liveness = runner := by
          rw [← isRunner] at isPass
          exact Option.some.inj isPass
        have world : (runLiveness session.world).2 = after.world := congrArg Prod.snd ran
        rw [← world]
        exact ResultTable.get?_insert_self _ _ _
      · have isVerify : runner = .verify := by
          cases runner with
          | verify => rfl
          | liveness => exact absurd (number_unique rfl isPass) isOther
          | _ => exact absurd (liveness_mem_stale isPass rfl) spared
        obtain ⟨functions, liveSets⟩ := apply_frame ran (.inl isVerify)
        rw [functions, liveSets]
        exact tracked.keepsLive wasValid

theorem Tracked.stepped {before after : Session StandardPass Program} (tracked : Tracked before)
    (stepped : Session.Step standard before after) :
    Tracked after := by
  refine ⟨stepped.fits tracked.fits, tracked.bound.stepped stepped, ?_⟩
  cases stepped with
  | executed executed => exact (tracked.executed executed).keepsLive
  | reset => exact fun valid => absurd valid (before.not_isValid_reset livenessId)
  | _ => exact tracked.keepsLive

/-- What is true of a session over the standard passes, whatever program it is handed. -/
structure Formed (session : Session StandardPass Program) : Prop where
  fits : session.Fits standard
  bound : Bound session

theorem Formed.stepped {before after : Session StandardPass Program} (formed : Formed before)
    (stepped : Session.Step standard before after) :
    Formed after :=
  ⟨stepped.fits formed.fits, formed.bound.stepped stepped⟩

theorem Formed.steps {before after : Session StandardPass Program} (formed : Formed before)
    (steps : ReflTransGen (Session.Step standard) before after) :
    Formed after :=
  Session.kept_of_steps steps (fun _ _ stepped held => held.stepped stepped) formed

theorem formed_of_reachable {session : Session StandardPass Program}
    (reachable : Session.Reachable standard session) :
    Formed session :=
  ⟨reachable.fits, bound_of_reachable reachable⟩

/-- After a reset nothing is valid, so nothing is said of the program. -/
theorem Formed.tracked_reset {session : Session StandardPass Program} (formed : Formed session) :
    Tracked session.reset where
  fits := (Session.Step.reset session).fits formed.fits
  bound := formed.bound
  keepsLive valid := absurd valid (session.not_isValid_reset livenessId)

theorem tracked_start (level : Level) (program : Program) :
    Tracked (.start standard level program) := by
  refine ⟨List.length_replicate, bound_of_none rfl, ?_⟩
  exact fun valid => absurd valid (Session.not_isValid_start standard level program livenessId)

end PassScheduler.StandardPass
