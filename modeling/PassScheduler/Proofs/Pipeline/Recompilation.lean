import PassScheduler.Proofs.Pipeline.Report
import PassScheduler.Proofs.Schedule.Simulation
import PassScheduler.Proofs.Source.RoundTrip

/-!
Contract: what a converged compilation prints is compiled to itself.

The last round of a converged repetition has changed nothing. A new session over the same functions
answers a round as the old one did, so its first round changes nothing either.

Owns:
- that the functions which a demand leaves can be written if those that it was given can;
- vouched sessions that agree in level and functions, and that they answer a round alike;
- the compilation of the text of a converged one.

Does not own: what converged programs look like.
-/

namespace PassScheduler

/-! ## Functions that can be written -/

namespace Function.Writable

variable {function : Function}

/-- What keeps labels and names no further successors keeps a function writable. -/
theorem mapBlocks {change : Block → Block} (writable : function.Writable)
    (within : ∀ block, (change block).Within block) :
    (function.mapBlocks change).Writable where
  hasBlock := by simpa [Function.mapBlocks] using writable.hasBlock
  name := writable.name
  labels := by
    intro changed isChanged
    obtain ⟨block, isBlock, rfl⟩ := List.mem_map.1 isChanged
    rw [(within block).label]
    exact writable.labels block isBlock
  targets := by
    intro changed isChanged target isTarget
    obtain ⟨block, isBlock, rfl⟩ := List.mem_map.1 isChanged
    exact writable.targets block isBlock target ((within block).successors isTarget)

theorem foldConstants (writable : function.Writable) : function.foldConstants.Writable := by
  induction function using Function.foldConstants.induct with
  | case1 function folded same =>
      rw [Function.foldConstants, if_pos same]
      exact writable
  | case2 function folded changed inductionHypothesis =>
      rw [Function.foldConstants, if_neg changed]
      exact inductionHypothesis (writable.mapBlocks (Block.within_foldWith _))

theorem dropDead (writable : function.Writable) (sets : LiveSets) :
    (function.dropDead sets).Writable := by
  unfold Function.dropDead
  cases sets.values? function.name with
  | none => exact writable
  | some live => exact writable.mapBlocks (Block.within_keepLive live)

end Function.Writable

/-- Analysis results have no place in the text of a program. -/
theorem Program.text_congr {first second : Program} (same : first.functions = second.functions) :
    first.text = second.text := by
  unfold Program.text
  rw [same]

namespace StandardPass

/-- Functions each of which can be written. -/
def AllWritable (functions : List Function) : Prop :=
  ∀ function ∈ functions, function.Writable

theorem AllWritable.map {functions : List Function} {change : Function → Function}
    (writable : AllWritable functions)
    (each : ∀ function : Function, function.Writable → (change function).Writable) :
    AllWritable (functions.map change) := by
  intro changed isChanged
  obtain ⟨function, member, rfl⟩ := List.mem_map.1 isChanged
  exact each function (writable function member)

theorem AllWritable.effect {functions : List Function} (writable : AllWritable functions)
    (runner : StandardPass) :
    AllWritable (runner.effect functions) := by
  cases runner with
  | verify => exact writable
  | liveness => exact writable
  | constFold => exact writable.map fun _ own => own.foldConstants
  | simplifyBranches => exact writable.map fun _ own => own.mapBlocks Block.within_simplifyBranch
  | algebraicSimplify => exact writable.map fun _ own => own.mapBlocks Block.within_simplifyOps
  | deadCodeElim => exact writable.map fun _ own => own.dropDead _

theorem AllWritable.outcome {functions : List Function} (writable : AllWritable functions)
    (level : Level) (id : PassId) :
    AllWritable (outcome level id functions).2 := by
  unfold StandardPass.outcome
  cases all[id]? with
  | none => exact writable
  | some runner =>
      dsimp only
      by_cases enabled : runner.descriptor.isEnabledAt level
      · rw [if_pos enabled]
        unfold StandardPass.answer
        cases firstViolation? [] functions with
        | none => exact writable.effect runner
        | some first => exact writable
      · rw [if_neg enabled]
        exact writable

theorem accumulates_writable :
    Session.Accumulates standard fun before _ after =>
      Vouched before ∧ AllWritable before.world.functions →
        Vouched after ∧ AllWritable after.world.functions where
  refl _ held := held
  trans first second held := second (first held)
  reset session held := ⟨held.1.stepped (.reset session), held.2⟩
  told session _ silent held := ⟨held.1.stepped (.told session silent), held.2⟩
  demand := by
    intro session after id changed ended ⟨vouched, writable⟩
    have isOutcome := vouched.demand_outcome id
    have steps := (Session.demanded standard session id).steps
    rw [ended] at isOutcome steps
    refine ⟨vouched.steps steps, ?_⟩
    have functions : after.world.functions = _ := congrArg Prod.snd isOutcome
    rw [functions]
    exact writable.outcome session.level id

/-! ## Sessions that agree -/

/-- Two vouched sessions at the same level and over the same functions. -/
structure Agreeing (session other : Session StandardPass Program) : Prop where
  vouched : Vouched session
  vouchedOther : Vouched other
  level : session.level = other.level
  functions : session.world.functions = other.world.functions

namespace Agreeing

variable {session other : Session StandardPass Program}

theorem demand (agreeing : Agreeing session other) (id : PassId) :
    Session.Alike Agreeing (session.demand standard id) (other.demand standard id) := by
  have demanded := Session.demanded standard session id
  have otherDemanded := Session.demanded standard other id
  have same : visible (session.demand standard id) = visible (other.demand standard id) := by
    rw [agreeing.vouched.demand_outcome, agreeing.vouchedOther.demand_outcome, agreeing.level,
      agreeing.functions]
  rw [visible, visible, Prod.mk.injEq] at same
  obtain ⟨sameAnswer, functions⟩ := same
  refine ⟨sameAnswer, agreeing.vouched.steps demanded.steps,
    agreeing.vouchedOther.steps otherDemanded.steps, ?_, functions⟩
  rw [demanded.level, otherDemanded.level, agreeing.level]

theorem stepped {after otherAfter : Session StandardPass Program}
    (agreeing : Agreeing session other) (stepped : Session.Step standard session after)
    (otherStepped : Session.Step standard other otherAfter)
    (level : after.level = otherAfter.level)
    (functions : after.world.functions = otherAfter.world.functions) :
    Agreeing after otherAfter :=
  ⟨agreeing.vouched.stepped stepped, agreeing.vouchedOther.stepped otherStepped, level, functions⟩

theorem simulates :
    Session.Simulates Eq Agreeing (Session.demand standard) (Session.demand standard) where
  level agreeing := agreeing.level
  demand := by
    rintro session other id _ agreeing rfl
    exact agreeing.demand id
  reset agreeing := agreeing.stepped (.reset _) (.reset _) agreeing.level agreeing.functions
  setLevel level agreeing :=
    agreeing.stepped (.setLevel _ level) (.setLevel _ level) rfl agreeing.functions
  told silent agreeing :=
    agreeing.stepped (.told _ silent) (.told _ silent) agreeing.level agreeing.functions
  clearTrace agreeing :=
    agreeing.stepped (.clearTrace _) (.clearTrace _) agreeing.level agreeing.functions

theorem round (agreeing : Agreeing session other) (passes : Option (List String)) :
    Session.Alike Agreeing (session.round standard passes) (other.round standard passes) := by
  cases passes with
  | none =>
      show Session.Alike Agreeing (session.runOnce standard) (other.runOnce standard)
      rw [← Session.runOnceBy_demand, ← Session.runOnceBy_demand]
      exact simulates.runOnce standard agreeing
  | some names =>
      show Session.Alike Agreeing (session.runList standard names) (other.runList standard names)
      rw [← Session.runListBy_demand, ← Session.runListBy_demand]
      exact simulates.runList (Session.Simulates.agrees_eq standard) names agreeing

end Agreeing

/-! ## Compiling again -/

/-- A drive that converged leaves functions over which a new session is settled at once. -/
theorem drive_again {config : PipelineConfig} {session last : Session StandardPass Program}
    {changed : Bool} {iterations : Nat} (vouched : Vouched session)
    (level : session.level = config.level)
    (driven : session.drive standard config = (.ok (changed, some ⟨iterations, true⟩), last))
    {program : Program} (functions : program.functions = last.world.functions) :
    ∃ after, (Session.start standard config.level program).drive standard config =
        (.ok (false, some ⟨1, true⟩), after) ∧ after.world.functions = program.functions := by
  cases Session.driven driven with
  | @repeated cap _ _ isRepeated ran =>
      have repeated := Session.repeated (Session.round standard config.passes) 0 cap.toNat session
      rw [ran] at repeated
      obtain ⟨_, prior, between, earlier, isLast, rfl⟩ :=
        accumulates_accounted.converged accumulates_accounted.round repeated rfl rfl
      -- The last round left the functions as it found them, so a new session over them agrees with
      -- the one that this round began in. What is valid there makes no difference to outcomes.
      have before := earlier vouched
      have idle := accumulates_accounted.round isLast before.vouched
      have same : between.world.functions = prior.world.functions := by
        cases idle.progress with
        | unchanged same => exact same
      have agreeing : Agreeing prior (.start standard config.level program) :=
        ⟨before.vouched, vouched_start config.level program, before.level.trans level,
          (functions.trans same).symm⟩
      have alike := agreeing.round config.passes
      rw [isLast] at alike
      have positive : 0 < cap.toNat := by
        obtain ⟨_, atMost, more⟩ := repeated.counts rfl
        rw [Nat.zero_add] at atMost
        exact (more rfl).trans_le atMost
      cases ended : (Session.start standard config.level program).round standard config.passes with
      | mk result after =>
          rw [ended] at alike
          obtain ⟨rfl, agreeingAfter⟩ := alike
          refine ⟨_, Session.drive_settled isRepeated positive ended, ?_⟩
          exact agreeingAfter.functions.symm.trans functions.symm

/-- What a converged compilation prints is read and compiled to the same functions and the same
text. Nothing changes, as is found in one round. -/
theorem compile_text_of_converged {registry : Registry StandardPass}
    (built : StandardPass.registry = .ok registry) {config : PipelineConfig} {source : String}
    {compiled : Compiled} {iterations : Nat}
    (succeeded : (compile Program registry config source).1 = .ok compiled)
    (converged : compiled.report.fixedPoint = some ⟨iterations, true⟩) :
    ∃ again, (compile Program registry config compiled.program.text).1 = .ok again ∧
      again.program.functions = compiled.program.functions ∧
      again.program.text = compiled.program.text ∧ again.report.changed = false ∧
      again.report.fixedPoint = some ⟨1, true⟩ := by
  obtain rfl : standard = registry := Except.ok.inj (registry_eq.symm.trans built)
  obtain ⟨functions, _, parsed, optimized, isProgram⟩ := compile_eq_ok succeeded
  obtain ⟨last, driven, _, rfl⟩ := optimize_eq_ok optimized
  rw [converged] at driven
  have vouched := vouched_start config.level (.ofFunctions functions)
  have output : compiled.program = last.world := isProgram
  have writable : AllWritable compiled.program.functions := by
    rw [output]
    exact (accumulates_writable.drive driven ⟨vouched, Source.writable_of_parse parsed⟩).2
  let program := Program.ofFunctions compiled.program.functions
  have same : program.functions = last.world.functions := by
    rw [← output]
    rfl
  obtain ⟨after, drivenAgain, functionsAgain⟩ := drive_again vouched rfl driven same
  have reread := Source.parse_text_of_writable compiled.program writable
  have optimizedAgain : optimize standard config program =
      (.ok ⟨false, some ⟨1, true⟩, after.trace⟩, after.notice
        (.optimizationFinished config.level after.trace.executed.length false)) := by
    unfold optimize
    simp only [drivenAgain]
  refine ⟨_, compile_of_optimize reread optimizedAgain, functionsAgain, ?_, rfl, rfl⟩
  exact Program.text_congr functionsAgain

/-- The function is changed and then settled in two rounds, and its new text in one. -/
theorem compile_text_of_converged_undecided :
    let config : PipelineConfig := { level := 2, mode := .fixedPoint 20 }
    let source := (Program.ofFunctions [undecided]).text
    registry = .ok standard ∧ ∃ compiled again,
      (compile Program standard config source).1 = .ok compiled ∧
        compiled.report.changed = true ∧ compiled.report.fixedPoint = some ⟨2, true⟩ ∧
        (compile Program standard config compiled.program.text).1 = .ok again ∧
        again.program.text = compiled.program.text ∧ again.report.changed = false ∧
        again.report.fixedPoint = some ⟨1, true⟩ := by
  intro config source
  have writable : undecided.Writable :=
    ⟨by decide, by decide, by decide, by decide⟩
  have parsed : Source.parse source = .ok [undecided] :=
    Source.parse_text_of_writable (.ofFunctions [undecided]) (List.forall_mem_singleton.2 writable)
  have answered : (optimize standard config (Program.ofFunctions [undecided])).1.toOption.map
      (fun report => (report.changed, report.fixedPoint)) = some (true, some ⟨2, true⟩) := by
    cbv
  cases ended : optimize standard config (Program.ofFunctions [undecided]) with
  | mk result after =>
      rw [ended] at answered
      cases result with
      | error error => cases answered
      | ok report =>
          have succeeded : (compile Program standard config source).1 = .ok _ :=
            compile_of_optimize parsed ended
          obtain ⟨changed, converged⟩ := Prod.mk.inj (Option.some.inj answered)
          obtain ⟨again, compiledAgain, _, text, unchanged, settled⟩ :=
            compile_text_of_converged registry_eq succeeded converged
          exact ⟨registry_eq, _, again, succeeded, changed, converged, compiledAgain, text,
            unchanged, settled⟩

end StandardPass

end PassScheduler
