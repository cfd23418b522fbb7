import PassScheduler.Analysis.Liveness
import PassScheduler.Analysis.Verification
import PassScheduler.Pass.Basic
import PassScheduler.Transform.AlgebraicSimplification
import PassScheduler.Transform.BranchSimplification
import PassScheduler.Transform.ConstantFolding
import PassScheduler.Transform.DeadCodeElimination

/-!
Contract: the standard passes, two analyses and four transformations.

Owns: their names, their descriptors and what each does to a program. Every transformation makes
`verify` stale, and with it `liveness`, which requires it.

Does not own: the order in which they run.
-/

namespace PassScheduler

inductive StandardPass where
  | verify
  | liveness
  | constFold
  | simplifyBranches
  | algebraicSimplify
  | deadCodeElim
deriving DecidableEq, Repr

namespace StandardPass

/-- The standard passes in the order in which they are registered. -/
def all : List StandardPass :=
  [.verify, .liveness, .constFold, .simplifyBranches, .algebraicSimplify, .deadCodeElim]

def name : StandardPass → String
  | .verify => "verify"
  | .liveness => "liveness"
  | .constFold => "const-fold"
  | .simplifyBranches => "simplify-branches"
  | .algebraicSimplify => "algebraic-simplify"
  | .deadCodeElim => "dead-code-elim"

def ofName? (name : String) : Option StandardPass :=
  all.find? fun pass => pass.name = name

def descriptor (pass : StandardPass) : Descriptor :=
  match pass with
  | .verify => .analysis pass.name
  | .liveness => (Descriptor.analysis pass.name).requiring verify.name
  | .constFold =>
      (((Descriptor.transformation pass.name).fromLevel 1).requiring verify.name).invalidating
        verify.name
  | .simplifyBranches | .algebraicSimplify =>
      (((Descriptor.transformation pass.name).fromLevel 2).requiring verify.name).invalidating
        verify.name
  | .deadCodeElim =>
      (((Descriptor.transformation pass.name).fromLevel 1).requiring liveness.name).invalidating
        verify.name

/-- What the run of a pass comes to: whether it changed anything, and the program it leaves. -/
abbrev Outcome := Except PassError Bool × Program

/-- Marks a program that keeps all rules, and takes the mark from one that does not. -/
def runVerify (program : Program) : Outcome :=
  match firstViolation? [] program.functions with
  | some (function, violation) =>
      (.error (.malformed function violation.message),
        { program with results := program.results.erase .verified })
  | none => (.ok false, { program with results := program.results.insert .verified () })

/-- Keeps the live values of the functions as they are now. -/
def runLiveness (program : Program) : Outcome :=
  (.ok false,
    { program with
      results := program.results.insert .liveness (LiveSets.ofFunctions program.functions) })

/-- Edits every function on its own; the run reports a change iff one of the edits does. -/
def runTransform (edit : Function → Edited Function) (program : Program) : Outcome :=
  let edited := Edited.each edit program.functions
  (.ok edited.changed, { program with functions := edited.value })

/-- Drops what the kept live values call dead. Without live values there is nothing to go by. -/
def runDeadCodeElim (program : Program) : Outcome :=
  match program.liveSets? with
  | some live => runTransform (Edit.dropDead live) program
  | none => (.error (.missingAnalysis liveness.name), program)

/-- Runs a pass on a program. -/
def apply : StandardPass → Program → Outcome
  | .verify => runVerify
  | .liveness => runLiveness
  | .constFold => runTransform Edit.foldConstants
  | .simplifyBranches => runTransform Edit.simplifyBranches
  | .algebraicSimplify => runTransform Edit.simplifyOps
  | .deadCodeElim => runDeadCodeElim

/-- Standard passes keep no state of their own. -/
instance : Pass StandardPass Program where
  run pass program :=
    let (result, program) := pass.apply program
    (result, pass, program)

end StandardPass

end PassScheduler
