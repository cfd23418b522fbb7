import Mathlib.Data.List.Forall2
import PassScheduler.Proofs.Transform.WellFormedness

/-!
Contract: transformations take things away from functions and leave their shape as it is.

This asks for nothing of the functions. Values may be defined twice and used without being defined,
and the values that are kept when the dead ones are dropped may be any.

Owns:
- what a trimmed instruction, terminator, block and function may differ in from the original;
- that trimming can be repeated, and that every transformation trims.

Does not own: what the trimmed code computes.
-/

namespace PassScheduler

/-- An instruction has the destination that it had, and uses no further values. -/
structure Inst.TrimmedFrom (trimmed original : Inst) : Prop where
  dest : trimmed.dest = original.dest
  uses : valuesIn trimmed.op.operands ⊆ valuesIn original.op.operands

/-- A terminator is what it was, or its operand became an immediate, or it was a branch and jumps to
one of the two labels. -/
inductive Terminator.TrimmedFrom : Terminator → Terminator → Prop where
  | same (term : Terminator) : TrimmedFrom term term
  | result (n : Int64) (result : Operand) : TrimmedFrom (.ret (.imm n)) (.ret result)
  | condition (n : Int64) (condition : Operand) (thenLabel elseLabel : String) :
      TrimmedFrom (.br (.imm n) thenLabel elseLabel) (.br condition thenLabel elseLabel)
  | decided {target thenLabel elseLabel : String} (condition : Operand)
      (isTarget : target = thenLabel ∨ target = elseLabel) :
      TrimmedFrom (.jmp target) (.br condition thenLabel elseLabel)

/-- A block has the label that it had. Its instructions are some of those that it had, in their
order and each of them trimmed, and its terminator is trimmed. -/
structure Block.TrimmedFrom (trimmed original : Block) : Prop where
  label : trimmed.label = original.label
  insts : List.SublistForall₂ Inst.TrimmedFrom trimmed.insts original.insts
  term : trimmed.term.TrimmedFrom original.term

/-- A function has the name, the parameters and the number of blocks that it had, and each block is
trimmed. -/
structure Function.TrimmedFrom (trimmed original : Function) : Prop where
  name : trimmed.name = original.name
  params : trimmed.params = original.params
  blocks : List.Forall₂ Block.TrimmedFrom trimmed.blocks original.blocks

/-- Lists whose elements are related in pairs are related like their elements. -/
theorem forall₂_trans {α : Type} {related : α → α → Prop} [IsTrans α related]
    {firsts seconds thirds : List α} (left : List.Forall₂ related firsts seconds)
    (right : List.Forall₂ related seconds thirds) :
    List.Forall₂ related firsts thirds := by
  induction left generalizing thirds with
  | nil => exact right
  | cons isFirst _ inductionHypothesis =>
      cases right with
      | cons isSecond others =>
          exact .cons (IsTrans.trans _ _ _ isFirst isSecond) (inductionHypothesis others)

/-! ## Instructions -/

namespace Inst.TrimmedFrom

instance : Std.Refl Inst.TrimmedFrom where
  refl _ := ⟨rfl, List.Subset.refl _⟩

instance : IsTrans Inst Inst.TrimmedFrom where
  trans _ _ _ later earlier :=
    ⟨later.dest.trans earlier.dest, List.Subset.trans later.uses earlier.uses⟩

theorem foldWith (known : ValueId → Option Int64) (inst : Inst) :
    (inst.foldWith known).TrimmedFrom inst where
  dest := rfl
  uses := inst.uses_foldWith known

theorem simplify (inst : Inst) : inst.simplify.TrimmedFrom inst where
  dest := rfl
  uses := inst.uses_simplify

/-- Instructions that are each trimmed are trimmed together. -/
theorem map {change : Inst → Inst} (each : ∀ inst, (change inst).TrimmedFrom inst)
    (insts : List Inst) :
    List.SublistForall₂ Inst.TrimmedFrom (insts.map change) insts :=
  List.sublistForall₂_map_left_iff.2
    (List.sublistForall₂_iff.2
      ⟨insts, List.forall₂_same.2 fun inst _ => each inst, List.Sublist.refl insts⟩)

end Inst.TrimmedFrom

/-! ## Terminators -/

theorem Operand.substitute_eq (known : ValueId → Option Int64) (operand : Operand) :
    operand.substitute known = operand ∨ ∃ n, operand.substitute known = .imm n := by
  cases operand with
  | imm n => exact .inl rfl
  | value id =>
      simp only [substitute]
      cases known id with
      | none => exact .inl rfl
      | some n => exact .inr ⟨n, rfl⟩

namespace Terminator.TrimmedFrom

theorem trans {first second third : Terminator} (later : third.TrimmedFrom second)
    (earlier : second.TrimmedFrom first) :
    third.TrimmedFrom first := by
  cases later with
  | same => exact earlier
  | result n =>
      cases earlier with
      | same result => exact .result n _
      | result m result => exact .result n result
  | condition n =>
      cases earlier with
      | same => exact .condition n _ _ _
      | condition m condition => exact .condition n condition _ _
  | decided _ isTarget =>
      cases earlier with
      | same => exact .decided _ isTarget
      | condition m condition => exact .decided condition isTarget

theorem substitute (known : ValueId → Option Int64) (term : Terminator) :
    (term.mapOperands (Operand.substitute known)).TrimmedFrom term := by
  cases term with
  | jmp target => exact .same _
  | ret result =>
      rcases result.substitute_eq known with same | ⟨n, isImm⟩
      · rw [mapOperands, same]
        exact .same _
      · rw [mapOperands, isImm]
        exact .result n result
  | br condition thenLabel elseLabel =>
      rcases condition.substitute_eq known with same | ⟨n, isImm⟩
      · rw [mapOperands, same]
        exact .same _
      · rw [mapOperands, isImm]
        exact .condition n condition thenLabel elseLabel

theorem simplify (term : Terminator) : term.simplify.TrimmedFrom term := by
  unfold Terminator.simplify
  cases known : term.knownTarget? with
  | none => exact .same term
  | some target =>
      obtain ⟨condition, thenLabel, elseLabel, rfl, isTarget⟩ := eq_br_of_knownTarget? known
      exact .decided condition isTarget

end Terminator.TrimmedFrom

/-! ## Blocks -/

namespace Block.TrimmedFrom

instance : Std.Refl Block.TrimmedFrom where
  refl block := ⟨rfl, Std.Refl.refl block.insts, .same block.term⟩

instance : IsTrans Block Block.TrimmedFrom where
  trans _ _ _ later earlier :=
    ⟨later.label.trans earlier.label, IsTrans.trans _ _ _ later.insts earlier.insts,
      later.term.trans earlier.term⟩

theorem foldWith (known : ValueId → Option Int64) (block : Block) :
    (block.foldWith known).TrimmedFrom block where
  label := rfl
  insts := Inst.TrimmedFrom.map (.foldWith known) block.insts
  term := .substitute known block.term

theorem simplifyOps (block : Block) : block.simplifyOps.TrimmedFrom block where
  label := rfl
  insts := Inst.TrimmedFrom.map .simplify block.insts
  term := .same block.term

theorem simplifyBranch (block : Block) : block.simplifyBranch.TrimmedFrom block where
  label := rfl
  insts := Std.Refl.refl block.insts
  term := .simplify block.term

theorem keepLive (live : List ValueId) (block : Block) :
    (block.keepLive live).TrimmedFrom block where
  label := rfl
  insts := List.filter_sublist.sublistForall₂
  term := .same block.term

end Block.TrimmedFrom

/-! ## Functions -/

namespace Function.TrimmedFrom

instance : Std.Refl Function.TrimmedFrom where
  refl function := ⟨rfl, rfl, List.forall₂_refl function.blocks⟩

instance : IsTrans Function Function.TrimmedFrom where
  trans _ _ _ later earlier :=
    ⟨later.name.trans earlier.name, later.params.trans earlier.params,
      forall₂_trans later.blocks earlier.blocks⟩

theorem mapBlocks {change : Block → Block} (each : ∀ block, (change block).TrimmedFrom block)
    (function : Function) :
    (function.mapBlocks change).TrimmedFrom function where
  name := rfl
  params := rfl
  blocks := List.forall₂_map_left_iff.2 (List.forall₂_same.2 fun block _ => each block)

theorem foldConstants (function : Function) : function.foldConstants.TrimmedFrom function := by
  induction function using foldConstants.induct with
  | case1 function folded same =>
      rw [Function.foldConstants, if_pos same]
      exact Std.Refl.refl function
  | case2 function folded changed inductionHypothesis =>
      rw [Function.foldConstants, if_neg changed]
      have round := mapBlocks (Block.TrimmedFrom.foldWith function.constantOf?) function
      exact IsTrans.trans _ _ _ inductionHypothesis round

theorem simplifyOps (function : Function) : function.simplifyOps.TrimmedFrom function :=
  mapBlocks Block.TrimmedFrom.simplifyOps function

theorem simplifyBranches (function : Function) :
    function.simplifyBranches.TrimmedFrom function :=
  mapBlocks Block.TrimmedFrom.simplifyBranch function

/-- Whatever is taken for live, dropping the rest trims. -/
theorem dropDead (sets : LiveSets) (function : Function) :
    (function.dropDead sets).TrimmedFrom function := by
  unfold Function.dropDead
  split
  · exact Std.Refl.refl function
  · exact mapBlocks (Block.TrimmedFrom.keepLive _) function

end Function.TrimmedFrom

end PassScheduler
