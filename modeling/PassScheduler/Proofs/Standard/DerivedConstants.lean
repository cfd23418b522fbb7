import PassScheduler.Proofs.Standard.Refinement
import PassScheduler.Proofs.Transform.DerivedConstants

/-!
Contract: what `constFold` leaves of a program.

Owns: that the functions of a verified program are folded to what their definitions make constant,
what the run reports, and that a second run finds nothing to do in any program.

Does not own: when `constFold` is run.
-/

namespace PassScheduler.StandardPass

/-- Folding leaves functions as they are iff a round does. -/
theorem map_foldConstants_eq_self_iff {functions : List Function} :
    functions.map Function.foldConstants = functions ↔
      ∀ function ∈ functions, function.foldRound = function := by
  simp only [← Function.foldConstants_eq_self_iff]
  exact ⟨eq_self_of_map, fun same => (List.map_congr_left same).trans (List.map_id functions)⟩

theorem constFold_reports (program : Program) :
    ∃ changed, (constFold.apply program).1 = .ok changed ∧
      (changed = true ↔ (constFold.apply program).2.functions ≠ program.functions) ∧
      (changed = true ↔ ∃ function ∈ program.functions, function.foldRound ≠ function) := by
  rw [apply_constFold]
  refine ⟨program.functions.map Function.foldConstants ≠ program.functions, rfl,
    decide_eq_true_iff, ?_⟩
  rw [decide_eq_true_iff, Ne, map_foldConstants_eq_self_iff]
  simp

theorem constFold_again (program : Program) :
    constFold.apply (constFold.apply program).2 = (.ok false, (constFold.apply program).2) := by
  have folded : (program.functions.map Function.foldConstants).map Function.foldConstants =
      program.functions.map Function.foldConstants := by
    refine map_foldConstants_eq_self_iff.2 (List.forall_mem_map.2 fun function _ => ?_)
    exact function.foldRound_foldConstants
  simp only [apply_constFold, folded, ne_eq, not_true_eq_false, decide_false]

/-- `constFold` never fails, and it keeps results of analyses. In a verified program each value
becomes the constant that it is derived to be, each use of it too, and nothing else changes. The
run reports a change iff there is one, which is iff the first round changes some function. In any
program the rounds come to an end, each but the last with a change that it reports, and a second run
reports no change and leaves all as it is. -/
theorem constFold_foldsTo (program : Program) :
    ((verify.apply program).1 = .ok false →
        List.Forall₂ Function.FoldsTo program.functions (constFold.apply program).2.functions) ∧
      (∃ changed, (constFold.apply program).1 = .ok changed ∧
        (changed = true ↔ (constFold.apply program).2.functions ≠ program.functions) ∧
        (changed = true ↔ ∃ function ∈ program.functions, function.foldRound ≠ function)) ∧
      (constFold.apply program).2.results = program.results ∧
      (∀ function ∈ program.functions,
        ∃ count ≤ function.foldWeight, function.FoldedAfter count) ∧
      constFold.apply (constFold.apply program).2 = (.ok false, (constFold.apply program).2) := by
  refine ⟨fun verified => ?_, constFold_reports program, rfl,
    fun function _ => function.exists_foldedAfter, constFold_again program⟩
  obtain ⟨_, _, unbroken⟩ := firstViolation?_eq_none.1 (firstViolation?_of_verified verified)
  rw [apply_constFold]
  refine List.forall₂_map_right_iff.2 (List.forall₂_same.2 fun function member => ?_)
  exact Function.foldsTo_foldConstants (Function.definitions_nodup (unbroken function member))

/-- A chain of constants against the order of its uses, a quotient that does not exist and a value
that is defined by itself. -/
def chained : Function where
  name := "main"
  params := [⟨0⟩]
  blocks := [⟨"entry",
    [⟨⟨3⟩, .binary .add (.value ⟨2⟩) (.imm 1)⟩, ⟨⟨2⟩, .copy (.value ⟨1⟩)⟩, ⟨⟨1⟩, .const 4⟩,
      ⟨⟨4⟩, .binary .div (.value ⟨3⟩) (.imm 0)⟩,
      ⟨⟨5⟩, .binary .add (.value ⟨5⟩) (.value ⟨1⟩)⟩],
    .br (.value ⟨3⟩) "entry" "entry"⟩]

/-- The same function with the chain resolved. -/
def unchained : Function where
  name := "main"
  params := [⟨0⟩]
  blocks := [⟨"entry",
    [⟨⟨3⟩, .const 5⟩, ⟨⟨2⟩, .const 4⟩, ⟨⟨1⟩, .const 4⟩,
      ⟨⟨4⟩, .binary .div (.imm 5) (.imm 0)⟩, ⟨⟨5⟩, .binary .add (.value ⟨5⟩) (.imm 4)⟩],
    .br (.imm 5) "entry" "entry"⟩]

theorem constFold_foldsTo_chained :
    (verify.apply (.ofFunctions [chained])).1 = .ok false ∧
      List.Forall₂ Function.FoldsTo [chained] [unchained] := by
  have verified : (verify.apply (.ofFunctions [chained])).1 = .ok false := by cbv
  have folds := (constFold_foldsTo (.ofFunctions [chained])).1 verified
  have folded : (constFold.apply (.ofFunctions [chained])).2.functions = [unchained] := by cbv
  rw [folded] at folds
  exact ⟨verified, folds⟩

end PassScheduler.StandardPass
