import PassScheduler.Pass.Standard
import PassScheduler.Proofs.Transform.Potential

/-!
Contract: what the transformations among the standard passes leave of a program, and that they
report a change iff there is one.

Owns: one equation for each transformation.

Does not own: what the functions that are left compute.
-/

namespace PassScheduler.StandardPass

/-- Functions that are each edited by what reports its changes exactly are so together. -/
theorem runTransform_eq {edit : Function → Edited Function} {change : Function → Function}
    (reports : Edit.Reports edit change) (program : Program) :
    runTransform edit program =
      (.ok (program.functions.map change ≠ program.functions),
        { program with functions := program.functions.map change }) := by
  rw [runTransform, reports.each]

theorem apply_constFold (program : Program) :
    constFold.apply program =
      (.ok (program.functions.map Function.foldConstants ≠ program.functions),
        { program with functions := program.functions.map Function.foldConstants }) :=
  runTransform_eq Edit.foldConstants_reports program

theorem apply_simplifyBranches (program : Program) :
    simplifyBranches.apply program =
      (.ok (program.functions.map Function.simplifyBranches ≠ program.functions),
        { program with functions := program.functions.map Function.simplifyBranches }) :=
  runTransform_eq Edit.simplifyBranches_reports program

theorem apply_algebraicSimplify (program : Program) :
    algebraicSimplify.apply program =
      (.ok (program.functions.map Function.simplifyOps ≠ program.functions),
        { program with functions := program.functions.map Function.simplifyOps }) :=
  runTransform_eq Edit.simplifyOps_reports program

theorem apply_deadCodeElim {program : Program} {sets : LiveSets}
    (kept : program.liveSets? = some sets) :
    deadCodeElim.apply program =
      (.ok (program.functions.map (Function.dropDead sets) ≠ program.functions),
        { program with functions := program.functions.map (Function.dropDead sets) }) := by
  show runDeadCodeElim program = _
  rw [runDeadCodeElim, kept]
  exact runTransform_eq (Edit.dropDead_reports sets) program

end PassScheduler.StandardPass
