import PassScheduler.Digest.Sha256
import PassScheduler.Pass.Listing
import PassScheduler.Pipeline.Config
import PassScheduler.Schedule.Drive
import PassScheduler.Source.Parser

/-!
Contract: a program is read, the configured passes run over it, and what came of it is put on
record.

Owns:
- `optimize`, one drive of a new session as a configuration asks for it, with its report;
- the provenance of an output: digests of what it was made from and of what it came to;
- `compile`, which starts from a source text, and why it fails.

Does not own: files and the command line.
-/

namespace PassScheduler

/-- A world that passes work on and that holds one program. -/
class HasProgram (World : Type) where
  ofProgram : Program → World
  program : World → Program

instance : HasProgram Program where
  ofProgram program := program
  program world := world

/-- The version that provenance names. -/
def version : String := "0.3.0"

/-- What came of an optimisation: whether any pass changed anything, how the repetition ended if
there was one, and every decision in order. -/
structure Report where
  changed : Bool
  fixedPoint : Option FixedPoint
  trace : Trace
deriving DecidableEq, Repr

namespace Session

variable {Instance World : Type} [Pass Instance World]

/-- Drives the passes of a configuration. -/
def drive (registry : Registry Instance) (config : PipelineConfig)
    (session : Session Instance World) : Attempt Instance World (Bool × Option FixedPoint) :=
  let once := fun (attempt : Attempt Instance World Bool) =>
    (attempt.1.map fun changed => (changed, none), attempt.2)
  let repeated := fun (attempt : Attempt Instance World FixedPoint) =>
    (attempt.1.map fun outcome => (outcome.changed, some outcome), attempt.2)
  match config.passes, config.mode with
  | none, .once => once (session.runOnce registry)
  | some names, .once => once (session.runList registry names)
  | none, .fixedPoint cap => repeated (session.runToFixedPoint registry cap.toNat)
  | some names, .fixedPoint cap =>
      repeated (session.runListToFixedPoint registry names cap.toNat)

/-- The notices of a session, in order. -/
def notices (session : Session Instance World) : List Notice :=
  session.journal.toList.filterMap fun
    | .noticed notice => some notice
    | _ => none

end Session

/-- Runs the passes of a configuration over a world, in a session of its own. -/
def optimize {Instance World : Type} [Pass Instance World]
    (registry : Registry Instance) (config : PipelineConfig) (world : World) :
    Attempt Instance World Report :=
  match (Session.start registry config.level world).drive registry config with
  | (.error error, session) => (.error error, session)
  | (.ok (changed, fixedPoint), session) =>
      (.ok ⟨changed, fixedPoint, session.trace⟩,
        session.notice
          (.optimizationFinished config.level session.trace.executed.length changed))

/-- What an output was made from and what it came to. -/
structure Provenance where
  sourceHash : String
  outputHash : String
  registryFingerprint : String
  level : Level
  compilerVersion : String
deriving DecidableEq, Repr

namespace Provenance

def compute {Instance : Type} (source : String) (output : Program)
    (registry : Registry Instance) (level : Level) : Provenance where
  sourceHash := Digest.ofText source
  outputHash := Digest.ofText output.text
  registryFingerprint := Digest.ofText registry.canonicalJson
  level := level
  compilerVersion := version

def document (provenance : Provenance) : Json.Document :=
  .object
    [("source_hash", .string provenance.sourceHash),
      ("output_hash", .string provenance.outputHash),
      ("registry_fingerprint", .string provenance.registryFingerprint),
      ("opt_level", .number provenance.level.toNat),
      ("compiler_version", .string provenance.compilerVersion)]

def json (provenance : Provenance) : String :=
  Json.pretty provenance.document

end Provenance

/-- A program that was read and optimised. -/
structure Compiled where
  program : Program
  report : Report
  provenance : Provenance

/-- Why a source text could not be compiled. -/
inductive CompileError where
  | parse (diagnostics : List Diagnostic)
  | schedule (error : ScheduleError)
deriving DecidableEq, Repr

def CompileError.message : CompileError → String
  | .parse diagnostics => "input has " ++ diagnostics.length.repr ++ " error(s)"
  | .schedule error => error.message

/-- Reads a source text, optimises its program in a world of the given type, and puts on record
what it was made from. The notices come along whatever happens. -/
def compile {Instance : Type} (World : Type) [Pass Instance World] [HasProgram World]
    (registry : Registry Instance) (config : PipelineConfig) (source : String) :
    Except CompileError Compiled × List Notice :=
  match Source.parse source with
  | .error diagnostics => (.error (.parse diagnostics), [])
  | .ok functions =>
      let program := Program.ofFunctions functions
      let parsed := Notice.programParsed functions.length program.instCount
      let attempt := optimize registry config (HasProgram.ofProgram program : World)
      let notices := parsed :: attempt.2.notices
      match attempt.1 with
      | .error error => (.error (.schedule error), notices)
      | .ok report =>
          let output := HasProgram.program attempt.2.world
          (.ok ⟨output, report, .compute source output registry config.level⟩, notices)

end PassScheduler
