import PassScheduler.Pipeline.Run
import PassScheduler.Proofs.Schedule.Accumulation

/-!
Contract: a drive is one round of demands, or a repetition of rounds.

Owns:
- rounds, and what an answered drive consists of;
- that a relation which accumulates holds of every answered drive;
- the drive that is settled by its first round;
- the drive that an answered optimisation reports on, and the optimisation of an answered
  compilation.

Does not own: what a round does to a program.
-/

namespace PassScheduler.Session

variable {Instance World : Type} [Pass Instance World] {registry : Registry Instance}

/-- One run of all passes that take part, or of those of a list. -/
def round (registry : Registry Instance) (passes : Option (List String))
    (session : Session Instance World) : Attempt Instance World Bool :=
  match passes with
  | none => session.runOnce registry
  | some names => session.runList registry names

/-- What an answered drive consists of. -/
inductive Driven (registry : Registry Instance) (config : PipelineConfig)
    (session : Session Instance World) :
    Bool → Option FixedPoint → Session Instance World → Prop where
  | once {changed : Bool} {after : Session Instance World} (isOnce : config.mode = .once)
      (ran : session.round registry config.passes = (.ok changed, after)) :
      Driven registry config session changed none after
  | repeated {cap : UInt64} {outcome : FixedPoint} {after : Session Instance World}
      (isRepeated : config.mode = .fixedPoint cap)
      (ran : repeatRun (round registry config.passes) 0 cap.toNat session = (.ok outcome, after)) :
      Driven registry config session outcome.changed (some outcome) after

private theorem map_eq_ok {ε α β : Type} {change : α → β} {result : Except ε α} {answer : β}
    (mapped : result.map change = .ok answer) :
    ∃ original, result = .ok original ∧ change original = answer := by
  cases result with
  | error error => cases mapped
  | ok original => exact ⟨original, rfl, Except.ok.inj mapped⟩

/-- The names of an answered repetition are known, so they make no difference to it. -/
theorem runListToFixedPoint_eq_ok {names : List String} {cap : Nat} {outcome : FixedPoint}
    {session after : Session Instance World}
    (ended : session.runListToFixedPoint registry names cap = (.ok outcome, after)) :
    repeatRun (round registry (some names)) 0 cap session = (.ok outcome, after) := by
  unfold runListToFixedPoint at ended
  cases resolved : registry.resolveNames names with
  | error error => simp [resolved] at ended
  | ok ids =>
      rw [resolved] at ended
      exact ended

theorem driven {config : PipelineConfig} {session after : Session Instance World} {changed : Bool}
    {fixedPoint : Option FixedPoint}
    (ended : session.drive registry config = (.ok (changed, fixedPoint), after)) :
    Driven registry config session changed fixedPoint after := by
  obtain ⟨level, passes, mode⟩ := config
  have isAfter := congrArg Prod.snd ended
  cases mode with
  | once =>
      cases passes with
      | none | some =>
          obtain ⟨flag, answered, isAnswer⟩ := map_eq_ok (congrArg Prod.fst ended)
          cases isAnswer
          exact .once rfl (Prod.ext answered isAfter)
  | fixedPoint cap =>
      cases passes with
      | none =>
          obtain ⟨outcome, answered, isAnswer⟩ := map_eq_ok (congrArg Prod.fst ended)
          cases isAnswer
          exact .repeated rfl (Prod.ext answered isAfter)
      | some names =>
          obtain ⟨outcome, answered, isAnswer⟩ := map_eq_ok (congrArg Prod.fst ended)
          cases isAnswer
          exact .repeated rfl (runListToFixedPoint_eq_ok (Prod.ext answered isAfter))

namespace Accumulates

variable {related : Session Instance World → Bool → Session Instance World → Prop}
variable {config : PipelineConfig} {session after : Session Instance World} {changed : Bool}

theorem round (accumulates : Accumulates registry related) {passes : Option (List String)}
    (ended : session.round registry passes = (.ok changed, after)) :
    related session changed after := by
  cases passes with
  | none => exact accumulates.runOnce ended
  | some names => exact accumulates.runList ended

theorem drive (accumulates : Accumulates registry related) {fixedPoint : Option FixedPoint}
    (ended : session.drive registry config = (.ok (changed, fixedPoint), after)) :
    related session changed after := by
  cases driven ended with
  | once _ ran => exact accumulates.round ran
  | repeated _ ran => exact accumulates.repeatRun accumulates.round ran

end Accumulates

/-- A repetition whose first round changes nothing is settled by it. -/
theorem drive_settled {config : PipelineConfig} {cap : UInt64}
    {session after : Session Instance World}
    (isRepeated : config.mode = .fixedPoint cap) (positive : 0 < cap.toNat)
    (ran : session.round registry config.passes = (.ok false, after)) :
    session.drive registry config =
      (.ok (false, some ⟨1, true⟩), after.notice (.fixedPointReached 1)) := by
  obtain ⟨level, passes, mode⟩ := config
  obtain rfl : mode = .fixedPoint cap := isRepeated
  have settled : repeatRun (round registry passes) 0 cap.toNat session =
      (.ok ⟨1, true⟩, after.notice (.fixedPointReached 1)) := by
    rw [← Nat.sub_add_cancel positive, repeatRun_succ, ran]
    rfl
  cases passes with
  | none =>
      have ended : session.runToFixedPoint registry cap.toNat =
          (.ok ⟨1, true⟩, after.notice (.fixedPointReached 1)) := settled
      simp only [drive, ended]
      rfl
  | some names =>
      cases resolved : registry.resolveNames names with
      | error error => simp [round, runList, resolved] at ran
      | ok ids =>
          have ended : session.runListToFixedPoint registry names cap.toNat =
              (.ok ⟨1, true⟩, after.notice (.fixedPointReached 1)) := by
            unfold runListToFixedPoint
            rw [resolved]
            exact settled
          simp only [drive, ended]
          rfl

end PassScheduler.Session

namespace PassScheduler

/-- An answered optimisation reports on an answered drive of a new session. -/
theorem optimize_eq_ok {Instance World : Type} [Pass Instance World]
    {registry : Registry Instance} {config : PipelineConfig} {world : World} {report : Report}
    {after : Session Instance World}
    (ended : optimize registry config world = (.ok report, after)) :
    ∃ last, (Session.start registry config.level world).drive registry config =
        (.ok (report.changed, report.fixedPoint), last) ∧ report.trace = last.trace ∧
      after = last.notice
        (.optimizationFinished config.level last.trace.executed.length report.changed) := by
  unfold optimize at ended
  cases driven : (Session.start registry config.level world).drive registry config with
  | mk result last =>
      rw [driven] at ended
      cases result with
      | error error => cases ended
      | ok answer =>
          cases ended
          exact ⟨last, rfl, rfl, rfl⟩

/-- An answered compilation is that of the functions that were read. -/
theorem compile_eq_ok {Instance World : Type} [Pass Instance World] [HasProgram World]
    {registry : Registry Instance} {config : PipelineConfig} {source : String}
    {compiled : Compiled} (succeeded : (compile World registry config source).1 = .ok compiled) :
    ∃ functions after, Source.parse source = .ok functions ∧
      optimize registry config (HasProgram.ofProgram (.ofFunctions functions) : World) =
        (.ok compiled.report, after) ∧
      compiled.program = HasProgram.program after.world := by
  unfold compile at succeeded
  cases parsed : Source.parse source with
  | error diagnostics => simp [parsed] at succeeded
  | ok functions =>
      simp only [parsed] at succeeded
      cases ended : optimize registry config
          (HasProgram.ofProgram (.ofFunctions functions) : World) with
      | mk result after =>
          rw [ended] at succeeded
          cases result with
          | error error => cases succeeded
          | ok report =>
              cases succeeded
              exact ⟨functions, after, rfl, ended, rfl⟩

/-- What is read and optimised is compiled. -/
theorem compile_of_optimize {Instance World : Type} [Pass Instance World] [HasProgram World]
    {registry : Registry Instance} {config : PipelineConfig} {source : String}
    {functions : List Function} {report : Report} {after : Session Instance World}
    (parsed : Source.parse source = .ok functions)
    (ended : optimize registry config (HasProgram.ofProgram (.ofFunctions functions) : World) =
      (.ok report, after)) :
    (compile World registry config source).1 =
      .ok ⟨HasProgram.program after.world, report,
        .compute source (HasProgram.program after.world) registry config.level⟩ := by
  unfold compile
  simp only [parsed, ended]

end PassScheduler
