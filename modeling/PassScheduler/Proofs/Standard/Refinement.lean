import Mathlib.Data.List.Forall2
import PassScheduler.Proofs.Analysis.Verification
import PassScheduler.Proofs.Standard.Reporting
import PassScheduler.Proofs.Standard.Session
import PassScheduler.Proofs.Transform.ConstantFolding
import PassScheduler.Proofs.Transform.DeadCodeElimination
import PassScheduler.Proofs.Transform.Simplification

/-!
Contract: whatever is asked of a session over the standard passes, its program does what the
original did.

Owns:
- what every transformation keeps of a function, and every pass of a program;
- that after any requests every function of a verified program is refined by the one of its name.

Does not own: how far a program is simplified.
-/

open Relation (ReflTransGen)

namespace PassScheduler

/-- One function may stand for another: it has the same name, defines no value twice, and returns
whatever the other one returns. -/
structure Function.StandsFor (refined original : Function) : Prop where
  name : refined.name = original.name
  nodup : refined.definitions.Nodup
  refines : original.Refines refined

namespace Function.StandsFor

theorem trans {first second third : Function} (later : third.StandsFor second)
    (earlier : second.StandsFor first) :
    third.StandsFor first where
  name := later.name.trans earlier.name
  nodup := later.nodup
  refines := earlier.refines.trans later.refines

end Function.StandsFor

namespace StandardPass

/-- Every function of a program stands for the one in its place among the originals. -/
abbrev StandFor (originals functions : List Function) : Prop :=
  List.Forall₂ (fun original function => function.StandsFor original) originals functions

theorem StandFor.names {originals functions : List Function}
    (standFor : StandFor originals functions) :
    functions.map Function.name = originals.map Function.name := by
  induction standFor with
  | nil => rfl
  | cons first _ inductionHypothesis =>
      rw [List.map_cons, List.map_cons, first.name, inductionHypothesis]

/-- Where names are not repeated, a function is found by the name of the one that it stands for. -/
theorem StandFor.find? {originals functions : List Function}
    (standFor : StandFor originals functions) (names : (originals.map Function.name).Nodup)
    {original : Function} (member : original ∈ originals) :
    ∃ function, functions.find? (fun function => function.name = original.name) = some function ∧
      function.StandsFor original := by
  induction standFor with
  | nil => cases member
  | @cons head function originals functions first _ inductionHypothesis =>
      rw [List.map_cons, List.nodup_cons] at names
      rcases List.mem_cons.1 member with rfl | later
      · exact ⟨function, List.find?_cons_of_pos (by simpa using first.name), first⟩
      · obtain ⟨found, isFound, standsFor⟩ := inductionHypothesis names.2 later
        refine ⟨found, ?_, standsFor⟩
        have distinct : function.name ≠ original.name := by
          intro sameName
          rw [first.name] at sameName
          exact names.1 (sameName ▸ List.mem_map_of_mem later)
        rw [List.find?_cons_of_neg (by simpa using distinct)]
        exact isFound

theorem StandFor.map {originals functions : List Function} {change : Function → Function}
    (standFor : StandFor originals functions)
    (each : ∀ function ∈ functions, function.definitions.Nodup →
      (change function).StandsFor function) :
    StandFor originals (functions.map change) := by
  induction standFor with
  | nil => exact .nil
  | @cons original function originals functions first _ inductionHypothesis =>
      have changed := each function List.mem_cons_self first.nodup
      refine .cons (changed.trans first) (inductionHypothesis ?_)
      exact fun other member => each other (List.mem_cons_of_mem function member)

/-! ## Passes -/

theorem foldConstants_standsFor {function : Function} (nodup : function.definitions.Nodup) :
    function.foldConstants.StandsFor function := by
  obtain ⟨name, definitions, refines⟩ := function.foldConstants_spec nodup
  refine ⟨name, ?_, refines⟩
  rw [definitions]
  exact nodup

theorem simplifyBranches_standsFor {function : Function} (nodup : function.definitions.Nodup) :
    function.simplifyBranches.StandsFor function := by
  refine ⟨rfl, ?_, function.refines_simplifyBranches⟩
  rw [Function.definitions_simplifyBranches]
  exact nodup

theorem simplifyOps_standsFor {function : Function} (nodup : function.definitions.Nodup) :
    function.simplifyOps.StandsFor function := by
  refine ⟨rfl, ?_, function.refines_simplifyOps⟩
  rw [Function.definitions_simplifyOps]
  exact nodup

theorem dropDead_standsFor {functions : List Function} (names : (functions.map Function.name).Nodup)
    {function : Function} (member : function ∈ functions) (nodup : function.definitions.Nodup) :
    (function.dropDead (.ofFunctions functions)).StandsFor function where
  name := function.name_dropDead _
  nodup := nodup.sublist (function.definitions_dropDead _)
  refines := Function.refines_dropDead nodup (LiveSets.values?_ofFunctions names member)

/-- A pass leaves functions that stand for those it found, if `deadCodeElim` goes by live values
that are true. -/
theorem apply_standFor {originals : List Function} (names : (originals.map Function.name).Nodup)
    {runner : StandardPass} {program after : Program} {result : Except PassError Bool}
    (ran : runner.apply program = (result, after)) (standFor : StandFor originals program.functions)
    (live : runner = .deadCodeElim →
      program.liveSets? = some (.ofFunctions program.functions)) :
    StandFor originals after.functions := by
  cases runner with
  | verify =>
      rw [(apply_frame ran (.inl rfl)).1]
      exact standFor
  | liveness =>
      cases ran
      exact standFor
  | constFold =>
      rw [apply_constFold] at ran
      cases ran
      exact standFor.map fun _ _ nodup => foldConstants_standsFor nodup
  | simplifyBranches =>
      rw [apply_simplifyBranches] at ran
      cases ran
      exact standFor.map fun _ _ nodup => simplifyBranches_standsFor nodup
  | algebraicSimplify =>
      rw [apply_algebraicSimplify] at ran
      cases ran
      exact standFor.map fun _ _ nodup => simplifyOps_standsFor nodup
  | deadCodeElim =>
      rw [apply_deadCodeElim (live rfl)] at ran
      cases ran
      have currentNames : (program.functions.map Function.name).Nodup := by
        rw [standFor.names]
        exact names
      exact standFor.map fun _ member nodup => dropDead_standsFor currentNames member nodup

/-! ## Sessions -/

/-- What holds of a session over the standard passes that began with some functions. -/
structure Faithful (originals : List Function) (session : Session StandardPass Program) :
    Prop where
  tracked : Tracked session
  standFor : StandFor originals session.world.functions

theorem Faithful.stepped {originals : List Function} (names : (originals.map Function.name).Nodup)
    {before after : Session StandardPass Program} (faithful : Faithful originals before)
    (stepped : Session.Step standard before after) :
    Faithful originals after := by
  refine ⟨faithful.tracked.stepped stepped, ?_⟩
  cases stepped with
  | executed executed =>
      cases (applied executed faithful.tracked.bound).1 with
      | refused => exact faithful.standFor
      | failed isPass fresh ran =>
          apply apply_standFor names ran faithful.standFor
          rintro rfl
          exact live_of_fresh faithful.tracked isPass fresh
      | ran isPass fresh ran =>
          apply apply_standFor names ran faithful.standFor
          rintro rfl
          exact live_of_fresh faithful.tracked isPass fresh
  | _ => exact faithful.standFor

theorem firstViolation?_of_verified {program : Program}
    (verified : (verify.apply program).1 = .ok false) :
    firstViolation? [] program.functions = none := by
  have ran : (runVerify program).1 = .ok false := verified
  unfold runVerify at ran
  split at ran
  · cases ran
  · assumption

/-- After any requests to a session over the standard passes, every function of a verified program
is refined by the function of its name. -/
theorem performAll_refines {registry : Registry StandardPass}
    (built : StandardPass.registry = .ok registry) (level : Level) (program : Program)
    (verified : (verify.apply program).1 = .ok false) (requests : List Request)
    {function : Function} (member : function ∈ program.functions) :
    ∃ optimized,
      (Session.performAll registry (.start registry level program) requests).world.function?
        function.name = some optimized ∧
      ∀ arguments value, function.Returns arguments value → optimized.Returns arguments value := by
  obtain ⟨names, _, unbroken⟩ :=
    firstViolation?_eq_none.1 (firstViolation?_of_verified verified)
  obtain rfl : standard = registry := Except.ok.inj (registry_eq.symm.trans built)
  have initial : Faithful program.functions (.start standard level program) := by
    refine ⟨tracked_start level program, List.forall₂_same.2 ?_⟩
    intro other isOther
    exact ⟨rfl, Function.definitions_nodup (unbroken other isOther), .refl other⟩
  let start : Session StandardPass Program := .start standard level program
  have moves : ReflTransGen (Session.Move standard) start (start.performAll standard requests) :=
    Session.moves_performAll start requests
  have final := Session.kept_of_steps (Session.steps_of_moves moves)
    (fun _ _ stepped held => Faithful.stepped names held stepped) initial
  obtain ⟨optimized, isFound, standsFor⟩ := final.standFor.find? names member
  exact ⟨optimized, isFound, standsFor.refines⟩

/-- A function that adds two to its parameter and then computes something that nobody needs. -/
def addTwo : Function where
  name := "main"
  params := [⟨0⟩]
  blocks := [⟨"entry",
    [⟨⟨1⟩, .const 2⟩, ⟨⟨2⟩, .binary .add (.value ⟨0⟩) (.value ⟨1⟩)⟩,
      ⟨⟨3⟩, .binary .mul (.value ⟨2⟩) (.imm 0)⟩],
    .ret (.value ⟨2⟩)⟩]

theorem addTwo_returns : addTwo.Returns [40] 42 :=
  ⟨_, rfl, .returned rfl⟩

theorem performAll_refines_addTwo :
    registry = .ok standard ∧ (verify.apply (.ofFunctions [addTwo])).1 = .ok false ∧
      addTwo.Returns [40] 42 ∧
      ∃ optimized,
        (Session.performAll standard (.start standard 1 (Program.ofFunctions [addTwo]))
          [.runOnce, .setLevel 2, .runToFixedPoint 10, .reset]).world.function? "main" =
            some optimized ∧ optimized.Returns [40] 42 := by
  have verified : (verify.apply (.ofFunctions [addTwo])).1 = .ok false := by
    cbv
  obtain ⟨optimized, isFound, refines⟩ := performAll_refines registry_eq 1 (.ofFunctions [addTwo])
    verified [.runOnce, .setLevel 2, .runToFixedPoint 10, .reset] List.mem_cons_self
  exact ⟨registry_eq, verified, addTwo_returns, optimized, isFound, refines [40] 42 addTwo_returns⟩

end StandardPass

end PassScheduler
