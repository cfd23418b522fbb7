import Mathlib.Data.List.Permutation
import PassScheduler.Proofs.Analysis.LiveValues
import PassScheduler.Proofs.Standard.Reporting
import PassScheduler.Proofs.Transform.NormalForm

/-!
Contract: one round of dead code elimination is enough.

A definition of a live value is kept, so the one that counts stays the last. The live values are
therefore those of before, and nothing that is left is dead. No value has to be defined only once
for this.

Owns:
- that a function without its dead instructions has the live values that it had;
- what `liveness` and `dead-code-elim` do to a program, one after the other, and that doing the same
  again does nothing.

Does not own: that the shorter functions compute what the longer ones did.
-/

namespace PassScheduler

namespace Function

variable {function : Function}

/-- The function without the instructions whose destination is not live. -/
def pruned (function : Function) : Function :=
  function.mapBlocks (Block.keepLive function.liveValues)

theorem insts_pruned (function : Function) :
    function.pruned.insts =
      function.insts.filter fun inst => function.liveValues.contains inst.dest := by
  simp only [pruned, mapBlocks, insts, List.flatMap_map, List.filter_flatMap]
  rfl

theorem demandedValues_pruned (function : Function) :
    function.pruned.demandedValues = function.demandedValues := by
  simp only [pruned, mapBlocks, demandedValues, List.flatMap_map]
  rfl

/-- A live value is computed as before: no instruction that defines it is dropped. -/
theorem neededFor_pruned {id : ValueId} (live : id ∈ function.liveValues) :
    function.pruned.neededFor id = function.neededFor id := by
  have defining : function.pruned.definingOp? id = function.definingOp? id := by
    rw [definingOp?, definingOp?, insts_pruned, ← List.filter_reverse, List.find?_filter]
    congr 2
    funext inst
    by_cases isDest : inst.dest = id
    · simp [isDest, live]
    · simp [isDest]
  rw [neededFor, neededFor, defining]

theorem mem_liveValues_pruned {id : ValueId} :
    id ∈ function.pruned.liveValues ↔ id ∈ function.liveValues := by
  obtain ⟨isClosed, least⟩ := isLeast_liveValues function
  obtain ⟨prunedClosed, prunedLeast⟩ := isLeast_liveValues function.pruned
  obtain ⟨demanded, closed⟩ := closedUnderNeed_iff.1 isClosed
  obtain ⟨prunedDemanded, closedPruned⟩ := closedUnderNeed_iff.1 prunedClosed
  have stillClosed : function.pruned.ClosedUnderNeed {id | id ∈ function.liveValues} := by
    refine closedUnderNeed_iff.2 ⟨?_, ?_⟩
    · rw [demandedValues_pruned]
      exact demanded
    · intro id live needed isNeeded
      rw [neededFor_pruned live] at isNeeded
      exact closed id live needed isNeeded
  have stillLive : ∀ id ∈ function.pruned.liveValues, id ∈ function.liveValues :=
    fun _ isLive => prunedLeast stillClosed isLive
  have closedAsBefore :
      function.ClosedUnderNeed {id | id ∈ function.pruned.liveValues} := by
    refine closedUnderNeed_iff.2 ⟨?_, ?_⟩
    · rw [← demandedValues_pruned]
      exact prunedDemanded
    · intro id isLive needed isNeeded
      rw [← neededFor_pruned (stillLive id isLive)] at isNeeded
      exact closedPruned id isLive needed isNeeded
  exact ⟨stillLive id, fun live => least closedAsBefore live⟩

theorem liveValues_pruned (function : Function) :
    function.pruned.liveValues = function.liveValues := by
  have perm : function.pruned.liveValues.Perm function.liveValues :=
    (List.perm_ext_iff_of_nodup (nodup_liveValues _) (nodup_liveValues _)).2
      fun _ => mem_liveValues_pruned
  refine perm.eq_of_pairwise (fun first second _ _ less more => ?_)
    (pairwise_liveValues _) (pairwise_liveValues _)
  exact absurd (UInt32.lt_trans less more) (UInt32.lt_irrefl _)

/-- Only a function without dead instructions stays as it is. -/
theorem pruned_eq_self_iff :
    function.pruned = function ↔ ∀ inst ∈ function.insts, inst.dest ∈ function.liveValues := by
  constructor
  · intro same inst member
    have kept := function.insts_pruned
    rw [same] at kept
    simpa using List.filter_eq_self.1 kept.symm inst member
  · intro live
    have same : ∀ block ∈ function.blocks, block.keepLive function.liveValues = block := by
      intro block isBlock
      have kept : (block.insts.filter fun inst => function.liveValues.contains inst.dest) =
          block.insts :=
        List.filter_eq_self.2 fun inst member => by simpa using live inst (mem_insts isBlock member)
      rw [Block.keepLive, kept]
    show { function with blocks := function.blocks.map (Block.keepLive function.liveValues) } =
      function
    rw [List.map_congr_left same, List.map_id']

theorem pruned_pruned (function : Function) : function.pruned.pruned = function.pruned := by
  refine pruned_eq_self_iff.2 fun inst member => ?_
  rw [insts_pruned] at member
  simpa [liveValues_pruned] using (List.mem_filter.1 member).2

end Function

/-! ## The passes -/

namespace ResultTable

variable {Kind : Type} {Result : Kind → Type} [DecidableEq Kind]

/-- A result that is stored a second time replaces itself. -/
theorem insert_insert (table : ResultTable Kind Result) (kind : Kind) (result : Result kind) :
    (table.insert kind result).insert kind result = table.insert kind result := by
  simp [insert, erase, List.filter_filter]

end ResultTable

/-- The live values that are kept for functions do not change with the drop of dead instructions. -/
theorem LiveSets.ofFunctions_pruned (functions : List Function) :
    ofFunctions (functions.map Function.pruned) = ofFunctions functions := by
  rw [ofFunctions, ofFunctions, List.map_map]
  congr 1
  refine List.map_congr_left fun function _ => ?_
  rw [Function.comp_apply, Function.liveValues_pruned]
  rfl

namespace StandardPass

/-- What `liveness` keeps are the live values of the functions as they are. -/
theorem liveSets?_runLiveness (program : Program) :
    (runLiveness program).2.liveSets? = some (.ofFunctions program.functions) :=
  ResultTable.get?_insert_self _ _ _

/-- With the live values of its functions kept, a program loses its dead instructions. -/
theorem apply_deadCodeElim_of_names {program : Program}
    (names : (program.functions.map Function.name).Nodup)
    (kept : program.liveSets? = some (.ofFunctions program.functions)) :
    deadCodeElim.apply program =
      (.ok (program.functions.map Function.pruned ≠ program.functions),
        { program with functions := program.functions.map Function.pruned }) := by
  have dropped : program.functions.map (Function.dropDead (.ofFunctions program.functions)) =
      program.functions.map Function.pruned :=
    List.map_congr_left fun function member =>
      Function.dropDead_eq (LiveSets.values?_ofFunctions names member)
  rw [apply_deadCodeElim kept, dropped]

/-- The live values that are kept are still those of the functions without dead instructions. -/
theorem runLiveness_pruned (program : Program) :
    let pruned :=
      { (runLiveness program).2 with functions := program.functions.map Function.pruned }
    runLiveness pruned = (.ok false, pruned) := by
  intro pruned
  have sameSets : LiveSets.ofFunctions pruned.functions = .ofFunctions program.functions :=
    LiveSets.ofFunctions_pruned program.functions
  have sameResults : pruned.results.insert .liveness (LiveSets.ofFunctions pruned.functions) =
      pruned.results := by
    rw [sameSets]
    exact ResultTable.insert_insert _ _ _
  exact congrArg (fun results => (Except.ok false, { pruned with results := results })) sameResults

/-- A program loses an instruction iff one is dead. -/
theorem map_pruned_ne_iff {functions : List Function} :
    functions.map Function.pruned ≠ functions ↔
      ∃ function ∈ functions, ∃ inst ∈ function.insts, inst.dest ∉ function.liveValues := by
  constructor
  · intro differs
    by_contra noneDead
    push Not at noneDead
    have same : ∀ function ∈ functions, function.pruned = function :=
      fun function member => Function.pruned_eq_self_iff.2 (noneDead function member)
    exact differs ((List.map_congr_left same).trans (List.map_id' _))
  · rintro ⟨function, member, inst, isInst, dead⟩ same
    exact dead (Function.pruned_eq_self_iff.1 (eq_self_of_map same function member) inst isInst)

/-- Where names are not repeated, `liveness` and then `dead-code-elim` drop exactly the instructions
whose destination is not live. The live values stay what they were, so both passes, run again,
report no change and leave functions and results as they are. -/
theorem deadCodeElim_complete {program : Program}
    (names : (program.functions.map Function.name).Nodup) :
    ∃ analysed pruned changed,
      liveness.apply program = (.ok false, analysed) ∧
        deadCodeElim.apply analysed = (.ok changed, pruned) ∧
        (pruned.functions = program.functions.map fun function => function.mapBlocks fun block =>
          { block with insts := block.insts.filter fun inst => inst.dest ∈ function.liveValues }) ∧
        (changed = true ↔ ∃ function ∈ program.functions, ∃ inst ∈ function.insts,
          inst.dest ∉ function.liveValues) ∧
        pruned.functions.map Function.liveValues = program.functions.map Function.liveValues ∧
        liveness.apply pruned = (.ok false, pruned) ∧
        deadCodeElim.apply pruned = (.ok false, pruned) := by
  let analysed := (runLiveness program).2
  let pruned := { analysed with functions := program.functions.map Function.pruned }
  have prunedNames : (pruned.functions.map Function.name).Nodup := by
    rw [List.map_map]
    exact names
  have prunedSets : pruned.liveSets? = some (.ofFunctions pruned.functions) := by
    rw [show LiveSets.ofFunctions pruned.functions = .ofFunctions program.functions from
      LiveSets.ofFunctions_pruned program.functions]
    exact liveSets?_runLiveness program
  have stillPruned : pruned.functions.map Function.pruned = pruned.functions := by
    simp only [pruned, List.map_map]
    exact List.map_congr_left fun function _ => function.pruned_pruned
  refine ⟨analysed, pruned, program.functions.map Function.pruned ≠ program.functions, rfl,
    @apply_deadCodeElim_of_names analysed names (liveSets?_runLiveness program), ?_, ?_, ?_,
    runLiveness_pruned program, ?_⟩
  · refine List.map_congr_left fun function _ => ?_
    simp [Function.pruned, Function.mapBlocks, Block.keepLive]
  · rw [decide_eq_true_iff]
    exact map_pruned_ne_iff
  · simp only [pruned, List.map_map]
    exact List.map_congr_left fun function _ => function.liveValues_pruned
  · refine (apply_deadCodeElim_of_names prunedNames prunedSets).trans ?_
    rw [stillPruned]
    simp

/-- A value that is defined twice keeps both definitions, and one that only needs itself is dropped
with what is computed from it. -/
theorem deadCodeElim_complete_redefined :
    let before : Function := ⟨"f", [⟨0⟩], [⟨"entry", [⟨⟨1⟩, .const 1⟩, ⟨⟨2⟩, .copy (.value ⟨2⟩)⟩,
      ⟨⟨1⟩, .copy (.value ⟨0⟩)⟩, ⟨⟨3⟩, .binary .add (.value ⟨1⟩) (.value ⟨2⟩)⟩],
      .ret (.value ⟨1⟩)⟩]⟩
    let after : Function := ⟨"f", [⟨0⟩], [⟨"entry", [⟨⟨1⟩, .const 1⟩, ⟨⟨1⟩, .copy (.value ⟨0⟩)⟩],
      .ret (.value ⟨1⟩)⟩]⟩
    ([before].map Function.name).Nodup ∧ ∃ analysed pruned,
      liveness.apply (.ofFunctions [before]) = (.ok false, analysed) ∧
        deadCodeElim.apply analysed = (.ok true, pruned) ∧ pruned.functions = [after] ∧
        [after].map Function.liveValues = [before].map Function.liveValues ∧
        liveness.apply pruned = (.ok false, pruned) ∧
        deadCodeElim.apply pruned = (.ok false, pruned) := by
  intro before after
  have names : ((Program.ofFunctions [before]).functions.map Function.name).Nodup := by decide
  have live : before.liveValues = [⟨0⟩, ⟨1⟩] := by cbv
  obtain ⟨analysed, pruned, changed, analyses, prunes, left, isChange, sameLive, again, nothing⟩ :=
    deadCodeElim_complete names
  have isLeft : pruned.functions = [after] := by
    rw [left]
    simp [Program.ofFunctions, Function.mapBlocks, live, before, after]
  obtain rfl : changed = true :=
    isChange.2 ⟨before, List.mem_cons_self, ⟨⟨2⟩, .copy (.value ⟨2⟩)⟩, by decide, by simp [live]⟩
  rw [isLeft] at sameLive
  exact ⟨names, analysed, pruned, analyses, prunes, isLeft, sameLive, again, nothing⟩

end StandardPass

end PassScheduler
