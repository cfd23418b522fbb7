import PassScheduler.Proofs.Standard.Reporting
import PassScheduler.Proofs.Standard.Session
import PassScheduler.Proofs.Transform.Shape

/-!
Contract: whatever the standard passes are used for, a program keeps its shape.

Nothing is asked of the program or of the results that it keeps. In particular, what is dropped as
dead may be so by live values of functions that the program had before.

Owns:
- that every run of a standard pass, and every request, trims the functions of a program;
- that any row of such uses does.

Does not own: which runs change a program.
-/

open Relation (ReflTransGen)

namespace PassScheduler.StandardPass

/-- Every function is trimmed from the one in its place. -/
def Trimmed (functions originals : List Function) : Prop :=
  List.Forall₂ Function.TrimmedFrom functions originals

theorem Trimmed.refl (functions : List Function) : Trimmed functions functions :=
  List.forall₂_refl functions

theorem Trimmed.trans {first second third : List Function} (later : Trimmed third second)
    (earlier : Trimmed second first) :
    Trimmed third first :=
  forall₂_trans later earlier

theorem trimmed_map {change : Function → Function}
    (each : ∀ function, (change function).TrimmedFrom function) (functions : List Function) :
    Trimmed (functions.map change) functions :=
  List.forall₂_map_left_iff.2 (List.forall₂_same.2 fun function _ => each function)

theorem trimmed_apply (runner : StandardPass) (program : Program) :
    Trimmed (runner.apply program).2.functions program.functions := by
  cases runner with
  | verify =>
      show Trimmed (runVerify program).2.functions program.functions
      unfold runVerify
      split <;> exact .refl program.functions
  | liveness => exact .refl program.functions
  | constFold =>
      rw [apply_constFold]
      exact trimmed_map .foldConstants program.functions
  | simplifyBranches =>
      rw [apply_simplifyBranches]
      exact trimmed_map .simplifyBranches program.functions
  | algebraicSimplify =>
      rw [apply_algebraicSimplify]
      exact trimmed_map .simplifyOps program.functions
  | deadCodeElim =>
      cases kept : program.liveSets? with
      | some live =>
          rw [apply_deadCodeElim kept]
          exact trimmed_map (.dropDead live) program.functions
      | none =>
          show Trimmed (runDeadCodeElim program).2.functions program.functions
          rw [runDeadCodeElim, kept]
          exact .refl program.functions

section Sessions

variable {registry : Registry StandardPass}

theorem trimmed_of_steps {before after : Session StandardPass Program}
    (steps : ReflTransGen (Session.Step registry) before after) :
    Trimmed after.world.functions before.world.functions := by
  induction steps with
  | refl => exact .refl before.world.functions
  | @tail between after _ stepped inductionHypothesis =>
      rcases stepped.world with same | ⟨runner, ran⟩
      · rw [same]
        exact inductionHypothesis
      · rw [ran]
        exact (trimmed_apply runner between.world).trans inductionHypothesis

theorem trimmed_perform (session : Session StandardPass Program) (request : Request) :
    Trimmed (session.perform registry request).2.world.functions session.world.functions :=
  trimmed_of_steps (Session.steps_of_moves (Session.follows_perform session request).moves)

end Sessions

/-- One use of the passes on a program. Either a pass is run on it, or the program is handed to a
session, whatever was done in that before, and a request is made. -/
inductive Use where
  | direct (runner : StandardPass)
  | scheduled (session : Session StandardPass Program) (request : Request)

namespace Use

/-- The program that a use leaves. -/
def apply (registry : Registry StandardPass) (program : Program) : Use → Program
  | .direct runner => (runner.apply program).2
  | .scheduled session request => ((session.handed program).perform registry request).2.world

/-- Any row of uses leaves a program with as many functions, each of the name and the parameters
that it had. A function has as many blocks, each of the label that it had, and in each block some of
the instructions that were there, in their order. These have their old destinations and use no
further values, and a terminator is the old one, up to an immediate in the place of its operand, or
jumps to one of the two labels of an old branch. -/
theorem foldl_trimmed (registry : Registry StandardPass) (uses : List Use) (program : Program) :
    List.Forall₂ Function.TrimmedFrom (uses.foldl (apply registry) program).functions
      program.functions := by
  induction uses generalizing program with
  | nil => exact Trimmed.refl program.functions
  | cons use uses inductionHypothesis =>
      refine Trimmed.trans (inductionHypothesis _) ?_
      cases use with
      | direct runner => exact trimmed_apply runner program
      | scheduled session request => exact trimmed_perform (session.handed program) request

end Use

end PassScheduler.StandardPass
