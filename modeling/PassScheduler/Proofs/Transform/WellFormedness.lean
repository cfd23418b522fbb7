import PassScheduler.Proofs.Analysis.Verification
import PassScheduler.Proofs.Transform.ConstantFolding
import PassScheduler.Proofs.Transform.DeadCodeElimination
import PassScheduler.Proofs.Transform.Simplification

/-!
Contract: no transformation breaks a rule that functions have to keep.

Every transformation changes blocks one by one. A changed block has its old label, and it neither
uses a value nor names a successor that it did not before. Only dropping instructions takes
definitions away, and what it leaves uses live values, which stay defined.

Owns:
- what a changed block may differ in, and that every transformation keeps to it;
- that well-formed functions stay well-formed, if what is dropped is not live.

Does not own: how far a function is simplified.
-/

namespace PassScheduler

theorem mem_valuesIn {operands : List Operand} {id : ValueId} :
    id ∈ valuesIn operands ↔ Operand.value id ∈ operands := by
  unfold valuesIn
  rw [List.mem_filterMap]
  constructor
  · rintro ⟨operand, member, isValue⟩
    cases operand with
    | value other =>
        cases isValue
        exact member
    | imm n => cases isValue
  · intro member
    exact ⟨.value id, member, rfl⟩

/-! ## Operations -/

theorem Operand.eq_value_of_substitute {known : ValueId → Option Int64} {operand : Operand}
    {id : ValueId} (substituted : operand.substitute known = .value id) :
    operand = .value id := by
  cases operand with
  | imm n => cases substituted
  | value other =>
      cases isKnown : known other with
      | none => simpa [substitute, isKnown] using substituted
      | some n => simp [substitute, isKnown] at substituted

theorem valuesIn_substitute_subset (known : ValueId → Option Int64) (operands : List Operand) :
    valuesIn (operands.map (Operand.substitute known)) ⊆ valuesIn operands := by
  intro id used
  obtain ⟨operand, member, substituted⟩ := List.mem_map.1 (mem_valuesIn.1 used)
  rw [Operand.eq_value_of_substitute substituted] at member
  exact mem_valuesIn.2 member

namespace Op

theorem operands_mapOperands (change : Operand → Operand) (op : Op) :
    (op.mapOperands change).operands = op.operands.map change := by
  cases op <;> rfl

theorem operands_fold_subset (op : Op) : op.fold.operands ⊆ op.operands := by
  unfold fold
  split
  · exact List.nil_subset _
  · split
    · exact List.nil_subset _
    · exact List.Subset.refl _
  · exact List.Subset.refl _

end Op

namespace Inst

theorem uses_foldWith (known : ValueId → Option Int64) (inst : Inst) :
    valuesIn (inst.foldWith known).op.operands ⊆ valuesIn inst.op.operands := by
  intro id used
  refine valuesIn_substitute_subset known _ ?_
  rw [← Op.operands_mapOperands]
  exact mem_valuesIn.2 (Op.operands_fold_subset _ (mem_valuesIn.1 used))

theorem uses_simplify (inst : Inst) :
    valuesIn inst.simplify.op.operands ⊆ valuesIn inst.op.operands := by
  intro id used
  unfold simplify at used
  cases found : inst.op.simplified? with
  | none =>
      rw [found] at used
      exact used
  | some simpler =>
      rw [found] at used
      exact mem_valuesIn.2 ((Op.operands_simplified found).subset (mem_valuesIn.1 used))

end Inst

namespace Terminator

theorem operands_mapOperands (change : Operand → Operand) (term : Terminator) :
    (term.mapOperands change).operands = term.operands.map change := by
  cases term <;> rfl

theorem successors_mapOperands (change : Operand → Operand) (term : Terminator) :
    (term.mapOperands change).successors = term.successors := by
  cases term <;> rfl

end Terminator

/-! ## Blocks -/

/-- A changed block keeps its label, uses no further values and names no further successors. -/
structure Block.Within (changed block : Block) : Prop where
  label : changed.label = block.label
  uses : valuesIn changed.operands ⊆ valuesIn block.operands
  successors : changed.term.successors ⊆ block.term.successors

namespace Block

/-- A block stays within itself if each of its new instructions uses what an old one does. -/
theorem within_of_insts {changed block : Block} (label : changed.label = block.label)
    (insts : ∀ inst ∈ changed.insts,
      ∃ old ∈ block.insts, valuesIn inst.op.operands ⊆ valuesIn old.op.operands)
    (term : valuesIn changed.term.operands ⊆ valuesIn block.term.operands)
    (successors : changed.term.successors ⊆ block.term.successors) :
    changed.Within block where
  label := label
  successors := successors
  uses := by
    intro id used
    rcases mem_valuesIn_operands.1 used with ⟨inst, member, used⟩ | used
    · obtain ⟨old, isOld, fewer⟩ := insts inst member
      exact mem_valuesIn_operands.2 (.inl ⟨old, isOld, fewer used⟩)
    · exact mem_valuesIn_operands.2 (.inr (term used))

theorem within_foldWith (known : ValueId → Option Int64) (block : Block) :
    (block.foldWith known).Within block := by
  refine within_of_insts rfl ?_ ?_ ?_
  · intro inst member
    obtain ⟨old, isOld, rfl⟩ := List.mem_map.1 member
    exact ⟨old, isOld, old.uses_foldWith known⟩
  · show valuesIn (block.term.mapOperands _).operands ⊆ _
    rw [Terminator.operands_mapOperands]
    exact valuesIn_substitute_subset known _
  · show (block.term.mapOperands _).successors ⊆ _
    rw [Terminator.successors_mapOperands]
    exact List.Subset.refl _

theorem within_simplifyOps (block : Block) : block.simplifyOps.Within block := by
  refine within_of_insts rfl ?_ ?_ ?_
  · intro inst member
    obtain ⟨old, isOld, rfl⟩ := List.mem_map.1 member
    exact ⟨old, isOld, old.uses_simplify⟩
  · exact List.Subset.refl _
  · exact List.Subset.refl _

theorem within_simplifyBranch (block : Block) : block.simplifyBranch.Within block := by
  have insts : ∀ inst ∈ block.simplifyBranch.insts,
      ∃ old ∈ block.insts, valuesIn inst.op.operands ⊆ valuesIn old.op.operands :=
    fun inst member => ⟨inst, member, List.Subset.refl _⟩
  have label : block.simplifyBranch.label = block.label := rfl
  have term : block.simplifyBranch.term = block.term.simplify := rfl
  cases known : block.term.knownTarget? with
  | none =>
      rw [Terminator.simplify, known] at term
      apply within_of_insts label insts <;> rw [term] <;> exact List.Subset.refl _
  | some target =>
      obtain ⟨condition, thenLabel, elseLabel, isBranch, isTarget⟩ :=
        Terminator.eq_br_of_knownTarget? known
      rw [Terminator.simplify, known] at term
      apply within_of_insts label insts <;> rw [term, isBranch]
      · exact List.nil_subset _
      · simpa [Terminator.successors] using isTarget

theorem within_keepLive (live : List ValueId) (block : Block) :
    (block.keepLive live).Within block := by
  refine within_of_insts rfl ?_ ?_ ?_
  · intro inst member
    exact ⟨inst, List.mem_of_mem_filter member, List.Subset.refl _⟩
  · exact List.Subset.refl _
  · exact List.Subset.refl _

end Block

/-! ## Functions -/

namespace Function.WellFormed

variable {function : Function}

theorem mapBlocks {change : Block → Block} (wellFormed : function.WellFormed)
    (within : ∀ block, (change block).Within block)
    (definitions : (function.mapBlocks change).definitions.Nodup)
    (defined : ∀ block ∈ function.blocks, ∀ id ∈ valuesIn (change block).operands,
      id ∈ (function.mapBlocks change).definitions) :
    (function.mapBlocks change).WellFormed := by
  have labels : (function.mapBlocks change).labels = function.labels := by
    unfold Function.labels Function.mapBlocks
    rw [List.map_map]
    exact List.map_congr_left fun block _ => (within block).label
  refine ⟨?_, labels ▸ wellFormed.labels, definitions, ?_, ?_⟩
  · simpa [Function.mapBlocks] using wellFormed.nonempty
  · intro changed isChanged
    obtain ⟨block, isBlock, rfl⟩ := List.mem_map.1 isChanged
    exact defined block isBlock
  · intro changed isChanged target isTarget
    obtain ⟨block, isBlock, rfl⟩ := List.mem_map.1 isChanged
    rw [labels]
    exact wellFormed.targets block isBlock target ((within block).successors isTarget)

/-- A change that keeps definitions has only to stay within each block. -/
theorem mapBlocks_of_definitions {change : Block → Block} (wellFormed : function.WellFormed)
    (within : ∀ block, (change block).Within block)
    (same : (function.mapBlocks change).definitions = function.definitions) :
    (function.mapBlocks change).WellFormed := by
  apply wellFormed.mapBlocks within
  · rw [same]
    exact wellFormed.definitions
  · intro block isBlock id used
    rw [same]
    exact wellFormed.uses block isBlock id ((within block).uses used)

theorem foldRound (wellFormed : function.WellFormed) : function.foldRound.WellFormed :=
  wellFormed.mapBlocks_of_definitions (Block.within_foldWith _) function.definitions_foldRound

theorem foldConstants (wellFormed : function.WellFormed) : function.foldConstants.WellFormed := by
  induction function using foldConstants.induct with
  | case1 function folded same =>
      rw [Function.foldConstants, if_pos same]
      exact wellFormed
  | case2 function folded changed inductionHypothesis =>
      rw [Function.foldConstants, if_neg changed]
      exact inductionHypothesis wellFormed.foldRound

theorem simplifyOps (wellFormed : function.WellFormed) : function.simplifyOps.WellFormed :=
  wellFormed.mapBlocks_of_definitions Block.within_simplifyOps function.definitions_simplifyOps

theorem simplifyBranches (wellFormed : function.WellFormed) :
    function.simplifyBranches.WellFormed :=
  wellFormed.mapBlocks_of_definitions Block.within_simplifyBranch
    function.definitions_simplifyBranches

/-- What is left after a drop uses live values, and those stay defined. -/
theorem dropDead (wellFormed : function.WellFormed) {sets : LiveSets}
    (known : sets.values? function.name = some function.liveValues) :
    (function.dropDead sets).WellFormed := by
  have fewer := function.definitions_dropDead sets
  rw [dropDead_eq known] at fewer ⊢
  apply wellFormed.mapBlocks (Block.within_keepLive _) (wellFormed.definitions.sublist fewer)
  intro block isBlock id used
  have live : id ∈ function.liveValues := by
    rcases Block.mem_valuesIn_operands.1 used with ⟨inst, member, used⟩ | used
    · obtain ⟨isOld, isLive⟩ := List.mem_filter.1 member
      exact live_of_inst wellFormed.definitions (mem_insts isBlock isOld) (by simpa using isLive)
        used
    · exact live_of_term isBlock used
  have defined := wellFormed.uses block isBlock id ((Block.within_keepLive _ block).uses used)
  rcases List.mem_append.1 defined with isParam | isDest
  · exact List.mem_append_left _ isParam
  · obtain ⟨inst, member, rfl⟩ := List.mem_map.1 isDest
    obtain ⟨definer, isDefiner, inDefiner⟩ := List.mem_flatMap.1 member
    refine List.mem_append_right _ (List.mem_map_of_mem ?_)
    refine List.mem_flatMap.2 ⟨_, List.mem_map_of_mem isDefiner, ?_⟩
    exact List.mem_filter.2 ⟨inDefiner, by simpa using live⟩

end Function.WellFormed

/-! ## Programs -/

/-- Functions keep all rules if each is changed into a well-formed one of its name. -/
theorem firstViolation?_map {functions : List Function} {change : Function → Function}
    (unbroken : firstViolation? [] functions = none)
    (names : ∀ function ∈ functions, function.WellFormed → (change function).name = function.name)
    (wellFormed : ∀ function ∈ functions, function.WellFormed → (change function).WellFormed) :
    firstViolation? [] (functions.map change) = none := by
  obtain ⟨nodup, _, each⟩ := firstViolation?_eq_none.1 unbroken
  have original : ∀ function ∈ functions, function.WellFormed :=
    fun function member => Function.violation?_eq_none.1 (each function member)
  refine firstViolation?_eq_none.2 ⟨?_, by simp, ?_⟩
  · have same : functions.map (Function.name ∘ change) = functions.map Function.name :=
      List.map_congr_left fun function member => names function member (original function member)
    rw [List.map_map, same]
    exact nodup
  · intro changed isChanged
    obtain ⟨function, member, rfl⟩ := List.mem_map.1 isChanged
    exact Function.violation?_eq_none.2 (wellFormed function member (original function member))

end PassScheduler
