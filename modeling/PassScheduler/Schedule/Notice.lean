import PassScheduler.Pass.Descriptor
import PassScheduler.Text.Quoted

/-!
Contract: what is told of a run while it goes on.

Owns: the notices, how weighty each is, and their wording: a few words and then the facts, each
after its name.

Does not own: which notices a reader gets to see.
-/

namespace PassScheduler

/-- How weighty a notice is, the lightest first. -/
inductive Weight where
  | debug
  | info
  | warn
deriving DecidableEq, Repr

namespace Weight

def text : Weight → String
  | .debug => "DEBUG"
  | .info => "INFO"
  | .warn => "WARN"

def rank : Weight → Nat
  | .debug => 0
  | .info => 1
  | .warn => 2

end Weight

inductive Notice where
  | registryBuilt (passes requirementEdges : Nat)
  | skipped (pass : String) (minLevel : Level)
  | cached (pass : String)
  | ran (pass : String) (changed : Bool)
  | invalidated (pass : String)
  | runFinished (level : Level) (changed : Bool)
  | listFinished (level : Level) (passes : Nat) (changed : Bool)
  | fixedPointReached (iterations : Nat)
  | capReached (maxIterations : Nat)
  | programParsed (functions insts : Nat)
  | optimizationFinished (level : Level) (executed : Nat) (changed : Bool)
deriving DecidableEq, Repr

namespace Notice

def weight : Notice → Weight
  | .runFinished .. | .listFinished .. | .fixedPointReached .. | .optimizationFinished .. => .info
  | .capReached .. => .warn
  | _ => .debug

private def natField (name : String) (n : Nat) : String :=
  " " ++ name ++ "=" ++ n.repr

private def boolField (name : String) (b : Bool) : String :=
  " " ++ name ++ "=" ++ if b then "true" else "false"

private def textField (name text : String) : String :=
  " " ++ name ++ "=" ++ Text.quoted text

def message : Notice → String
  | .registryBuilt passes requirementEdges =>
      "pass registry initialized" ++ natField "passes" passes ++
        natField "requirement_edges" requirementEdges
  | .skipped pass minLevel =>
      "skipped" ++ textField "pass" pass ++ natField "min_opt_level" minLevel.toNat
  | .cached pass => "cached" ++ textField "pass" pass
  | .ran pass changed => "ran" ++ textField "pass" pass ++ boolField "changed" changed
  | .invalidated pass => "invalidated" ++ textField "pass" pass
  | .runFinished level changed =>
      "pass run finished" ++ natField "opt_level" level.toNat ++ boolField "changed" changed
  | .listFinished level passes changed =>
      "pass list finished" ++ natField "opt_level" level.toNat ++ natField "passes" passes ++
        boolField "changed" changed
  | .fixedPointReached iterations =>
      "fixed point reached" ++ natField "iterations" iterations
  | .capReached maxIterations =>
      "iteration cap reached before a fixed point" ++ natField "max_iterations" maxIterations
  | .programParsed functions insts =>
      "parsed module" ++ natField "functions" functions ++ natField "insts" insts
  | .optimizationFinished level executed changed =>
      "optimization finished" ++ natField "opt_level" level.toNat ++
        natField "executed" executed ++ boolField "changed" changed

/-- A notice as a line of a log. -/
def line (notice : Notice) : String :=
  notice.weight.text ++ " " ++ notice.message

end Notice

end PassScheduler
