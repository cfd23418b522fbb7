import PassScheduler.CommandLine.Host
import PassScheduler.CommandLine.Options
import PassScheduler.Pass.StandardRegistry
import PassScheduler.Pipeline.Run
import PassScheduler.Schedule.TraceForm

/-!
Contract: a command from its arguments to everything that it shows and writes.

Owns:
- the configuration that a file and the options make together, the options winning;
- the texts that can be asked for, and the messages and exit codes of failures;
- `run`, for any host that can read and write files.

Does not own: the files themselves, or how output reaches a terminal.
-/

namespace PassScheduler.CommandLine

/-- The name under which the program reports. -/
def programName : String := "xyopt"

/-- What a command leaves behind, apart from files. Guidance explains how the command is used. -/
structure Outcome where
  exitCode : Nat := 0
  output : String := ""
  messages : List String := []
  log : List Notice := []
  guidance : String := ""
deriving DecidableEq, Repr

def guidance : String :=
  "usage: " ++ programName ++ " [options] [source]\n" ++
  "  -o, --output <file>        where to write (standard output)\n" ++
  "  -O, --opt-level <level>    optimization level\n" ++
  "      --passes <names>       passes to run, separated by commas\n" ++
  "      --fixed-point          repeat until nothing changes\n" ++
  "      --max-iterations <n>   iteration cap; implies --fixed-point\n" ++
  "      --config <file>        pipeline config; options override its values\n" ++
  "      --emit <kind>          ir, trace, passes, dot or build-info\n" ++
  "  -v, --verbose              more log lines\n" ++
  "  -h, --help                 this text\n" ++
  "  -V, --version              the version\n"

def errorMessage (text : String) : String :=
  programName ++ ": error: " ++ text

/-- A configuration with the given options put over it. -/
def override (options : Options) (config : PipelineConfig) : PipelineConfig where
  level := options.level.getD config.level
  passes := if options.passes = [] then config.passes else some options.passes
  mode :=
    let configured := match config.mode with
      | .once => none
      | .fixedPoint cap => some cap
    if options.fixedPoint || options.maxIterations.isSome then
      .fixedPoint ((options.maxIterations.or configured).getD defaultMaxIterations)
    else
      config.mode

/-- The notices that are shown at a verbosity. -/
def shown (verbosity : Nat) (notices : List Notice) : List Notice :=
  let least : Weight := match verbosity with
    | 0 => .warn
    | 1 => .info
    | _ => .debug
  notices.filter fun notice => least.rank ≤ notice.weight.rank

section Host

variable {m : Type → Type} [Monad m]

/-- The text of a file, or the message that it cannot be read. -/
def Host.load (host : Host m) (path : String) : m (Except String String) := do
  match ← host.read path with
  | .ok text => pure (.ok text)
  | .error error => pure (.error (errorMessage (path ++ ": " ++ error.message)))

/-- The configuration of a command, or the message that its file cannot be used. -/
def configure (host : Host m) (options : Options) : m (Except String PipelineConfig) :=
  match options.config with
  | none => pure (.ok (override options {}))
  | some path => do
      match ← host.load path with
      | .error message => pure (.error message)
      | .ok text =>
          match PipelineConfig.ofJson text with
          | .ok config => pure (.ok (override options config))
          | .error error =>
              pure (.error (errorMessage error.message))

/-- Writes a text where the options say, with messages and a log that are already there. -/
def deliver (host : Host m) (options : Options) (text : String) (messages : List String)
    (log : List Notice) : m Outcome :=
  match options.output with
  | none => pure { output := text, messages, log }
  | some path => do
      match ← host.write path text with
      | .ok _ => pure { messages, log }
      | .error error =>
          pure
            { exitCode := 2
              messages := messages ++ [errorMessage (path ++ ": " ++ error.message)]
              log }

/-- The messages of a source text that could not be compiled. -/
def failureMessages (path source : String) : CompileError → List String
  | .parse diagnostics =>
      (diagnostics.filterMap (·.render? source)).map fun text =>
        programName ++ ": " ++ path ++ ":" ++ text
  | .schedule error => [errorMessage error.message]

/-- A warning if a repetition ended at its cap. -/
def capWarnings : Option FixedPoint → List String
  | some ⟨iterations, false⟩ =>
      [programName ++ ": warning: no fixed point after " ++ iterations.repr ++ " iterations"]
  | _ => []

/-- Compiles the source that the options name and delivers a text that is made of the result. -/
def compileAndDeliver (host : Host m) (options : Options) (registry : Registry StandardPass)
    (config : PipelineConfig) (log : List Notice) (text : Compiled → String) : m Outcome :=
  match options.source with
  | none => pure { exitCode := 2, messages := [errorMessage "no input file"], log }
  | some path => do
      match ← host.load path with
      | .error message => pure { exitCode := 2, messages := [message], log }
      | .ok source =>
          match compile Program registry config source with
          | (.error error, notices) =>
              pure
                { exitCode := 1
                  messages := failureMessages path source error
                  log := log ++ notices }
          | (.ok compiled, notices) =>
              deliver host options (text compiled) (capWarnings compiled.report.fixedPoint)
                (log ++ notices)

/-- Delivers what the options ask for. -/
def emit (host : Host m) (options : Options) (registry : Registry StandardPass)
    (config : PipelineConfig) (log : List Notice) : m Outcome :=
  match options.emit.getD .ir with
  | .passes => deliver host options registry.table [] log
  | .dot => deliver host options (registry.dot (some config.level)) [] log
  | .ir =>
      compileAndDeliver host options registry config log fun compiled =>
        compiled.program.text
  | .trace =>
      compileAndDeliver host options registry config log fun compiled =>
        compiled.report.trace.json ++ "\n"
  | .buildInfo =>
      compileAndDeliver host options registry config log fun compiled =>
        compiled.provenance.json ++ "\n"

/-- Meets the options of a command. The log holds all notices, whatever the verbosity. -/
def meet (host : Host m) (options : Options) : m Outcome :=
  match StandardPass.registry with
  | .error error => pure { exitCode := 2, messages := [errorMessage error.message] }
  | .ok registry => do
      let log := [Notice.registryBuilt registry.size registry.graph.edgeCount]
      match ← configure host options with
      | .error message => pure { exitCode := 2, messages := [message], log }
      | .ok config => emit host options registry config log

/-- Runs a command. -/
def run (host : Host m) (arguments : List String) : m Outcome :=
  match Invocation.ofArguments arguments with
  | .help => pure { guidance }
  | .version => pure { output := programName ++ " " ++ version ++ "\n" }
  | .refused => pure { exitCode := 2, guidance }
  | .run options => do
      let outcome ← meet host options
      pure { outcome with log := shown options.verbosity outcome.log }

end Host

end PassScheduler.CommandLine
