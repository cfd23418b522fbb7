import PassScheduler.Transform.AlgebraicSimplification
import PassScheduler.Transform.BranchSimplification
import PassScheduler.Transform.ConstantFolding
import PassScheduler.Transform.DeadCodeElimination

/-!
Contract: what the transformations make of a function, said apart from what they report.

Owns:
- substitution, folding, simplification and dropping as changes of operands, instructions, blocks
  and functions;
- that each of them is what the edit of the same name leaves.

Does not own: when an edit reports a change, except that folding reports that of its first round.
-/

namespace PassScheduler

/-! ## Changes -/

/-- An operand with a known value replaced by its number. -/
def Operand.substitute (known : ValueId → Option Int64) : Operand → Operand
  | .value id =>
      match known id with
      | some n => .imm n
      | none => .value id
  | .imm n => .imm n

/-- The operation carried out, if it is one on immediates that has a value. -/
def Op.fold : Op → Op
  | .copy (.imm n) => .const n
  | .binary op (.imm lhs) (.imm rhs) =>
      match op.eval lhs rhs with
      | some n => .const n
      | none => .binary op (.imm lhs) (.imm rhs)
  | op => op

def Inst.foldWith (known : ValueId → Option Int64) (inst : Inst) : Inst :=
  { inst with op := (inst.op.mapOperands (Operand.substitute known)).fold }

def Block.foldWith (known : ValueId → Option Int64) (block : Block) : Block :=
  { block with
    insts := block.insts.map (Inst.foldWith known)
    term := block.term.mapOperands (Operand.substitute known) }

/-- What one round of folding makes of a function. -/
def Function.foldRound (function : Function) : Function :=
  function.mapBlocks (Block.foldWith function.constantOf?)

def Terminator.simplify (term : Terminator) : Terminator :=
  match term.knownTarget? with
  | some target => .jmp target
  | none => term

def Block.simplifyBranch (block : Block) : Block :=
  { block with term := block.term.simplify }

def Function.simplifyBranches (function : Function) : Function :=
  function.mapBlocks Block.simplifyBranch

def Inst.simplify (inst : Inst) : Inst :=
  { inst with op := inst.op.simplified?.getD inst.op }

def Block.simplifyOps (block : Block) : Block :=
  { block with insts := block.insts.map Inst.simplify }

def Function.simplifyOps (function : Function) : Function :=
  function.mapBlocks Block.simplifyOps

def Block.keepLive (live : List ValueId) (block : Block) : Block :=
  { block with insts := block.insts.filter fun inst => live.contains inst.dest }

def Function.dropDead (sets : LiveSets) (function : Function) : Function :=
  match sets.values? function.name with
  | none => function
  | some live => function.mapBlocks (Block.keepLive live)

/-! ## What edits leave -/

theorem Op.value_editOperands (edit : Operand → Edited Operand) (op : Op) :
    (op.editOperands edit).value = op.mapOperands fun operand => (edit operand).value := by
  cases op <;> rfl

theorem Terminator.value_editOperands (edit : Operand → Edited Operand) (term : Terminator) :
    (term.editOperands edit).value = term.mapOperands fun operand => (edit operand).value := by
  cases term <;> rfl

theorem Block.value_edit (editInsts : List Inst → Edited (List Inst))
    (editTerm : Terminator → Edited Terminator) (block : Block) :
    (block.edit editInsts editTerm).value =
      { block with insts := (editInsts block.insts).value, term := (editTerm block.term).value } :=
  rfl

theorem Function.value_editBlocks (edit : Block → Edited Block) (function : Function) :
    (function.editBlocks edit).value = function.mapBlocks fun block => (edit block).value := by
  simp [editBlocks, mapBlocks]

namespace Edit

theorem value_substitute (known : ValueId → Option Int64) (operand : Operand) :
    (substitute known operand).value = operand.substitute known := by
  cases operand with
  | imm n => rfl
  | value id =>
      simp only [substitute, Operand.substitute]
      cases known id <;> rfl

theorem value_carryOut (op : Op) : (carryOut op).value = op.fold := by
  unfold carryOut Op.folded? Op.fold
  split <;> split <;> simp_all

theorem value_foldOp (known : ValueId → Option Int64) (op : Op) :
    (foldOp known op).value = (op.mapOperands (Operand.substitute known)).fold := by
  rw [foldOp, Edited.value_bind, value_carryOut, Op.value_editOperands]
  simp only [value_substitute]

theorem value_foldBlock (known : ValueId → Option Int64) (block : Block) :
    (foldBlock known block).value = block.foldWith known := by
  simp [foldBlock, Block.value_edit, Block.foldWith, Inst.edit, value_foldOp,
    Terminator.value_editOperands, value_substitute, Inst.foldWith]

theorem value_foldRound (function : Function) :
    (foldRound function).value = function.foldRound := by
  simp only [foldRound, Function.value_editBlocks, value_foldBlock, Function.foldRound]

theorem value_simplifyTerm (term : Terminator) : (simplifyTerm term).value = term.simplify := by
  unfold simplifyTerm Terminator.simplify
  cases term.knownTarget? <;> rfl

theorem value_simplifyBranches (function : Function) :
    (simplifyBranches function).value = function.simplifyBranches := by
  have each (block : Block) : (block.edit pure simplifyTerm).value = block.simplifyBranch := by
    rw [Block.value_edit, value_simplifyTerm]
    rfl
  simp only [simplifyBranches, Function.value_editBlocks, each, Function.simplifyBranches]

theorem value_simplifyOp (op : Op) : (simplifyOp op).value = op.simplified?.getD op := by
  unfold simplifyOp
  cases op.simplified? <;> rfl

theorem value_simplifyOps (function : Function) :
    (simplifyOps function).value = function.simplifyOps := by
  have each (block : Block) :
      (block.edit (Edited.each (Inst.edit simplifyOp)) pure).value = block.simplifyOps := by
    simp only [Block.value_edit, Edited.value_each, Inst.edit, Edited.value_bind, value_simplifyOp,
      Edited.value_pure]
    rfl
  simp only [simplifyOps, Function.value_editBlocks, each, Function.simplifyOps]

theorem value_dropDead (sets : LiveSets) (function : Function) :
    (dropDead sets function).value = function.dropDead sets := by
  unfold dropDead Function.dropDead
  cases sets.values? function.name with
  | none => rfl
  | some live => exact function.value_editBlocks _

end Edit

/-! ## Rounds -/

/-- An edit that lightens reports a change iff there is one. -/
theorem Lightens.changed_iff {α : Type} {weight : α → Nat} {edit : α → Edited α}
    (lightens : Lightens weight edit) (element : α) :
    (edit element).changed = true ↔ (edit element).value ≠ element := by
  rcases lightens element with same | ⟨changed, lighter⟩
  · simp [same]
  · refine ⟨fun _ unchanged => ?_, fun _ => changed⟩
    rw [unchanged] at lighter
    exact Nat.lt_irrefl _ lighter

namespace Function

/-- A round of folding reports a change iff there is one. -/
theorem changed_foldRound_iff (function : Function) :
    (Edit.foldRound function).changed = true ↔ function.foldRound ≠ function := by
  rw [Edit.foldRound_lightens.changed_iff, Edit.value_foldRound]

theorem foldRound_lighter {function : Function} (changed : function.foldRound ≠ function) :
    function.foldRound.foldWeight < function.foldWeight := by
  rw [← Edit.value_foldRound]
  exact Edit.foldRound_lighter (function.changed_foldRound_iff.2 changed)

/-- Rounds of folding until one changes nothing. -/
def foldConstants (function : Function) : Function :=
  let folded := function.foldRound
  if folded = function then function else folded.foldConstants
termination_by function.foldWeight
decreasing_by exact foldRound_lighter ‹_›

end Function

namespace Edit

/-- The rounds leave what they would leave if each were asked for a change and not for its report.
They report a change iff there was one before or the first of them reports one. -/
theorem foldRounds_eq (changed : Bool) (function : Function) :
    foldRounds changed function =
      ⟨function.foldConstants, changed || (foldRound function).changed⟩ := by
  induction changed, function using foldRounds.induct with
  | case1 changed function round reports inductionHypothesis =>
      have differs := function.changed_foldRound_iff.1 reports
      have next : function.foldConstants = round.value.foldConstants := by
        rw [Function.foldConstants, if_neg differs, ← value_foldRound]
      have reported : (foldRound function).changed = true := reports
      rw [foldRounds, if_pos reports, inductionHypothesis, next, reported, Bool.true_or,
        Bool.or_true]
  | case2 changed function round silent =>
      have same : function.foldRound = function :=
        Decidable.not_not.1 fun differs => silent (function.changed_foldRound_iff.2 differs)
      have last : function.foldConstants = function := by
        rw [Function.foldConstants, if_pos same]
      have unreported : (foldRound function).changed = false := eq_false_of_ne_true silent
      rw [foldRounds, if_neg silent, value_foldRound, same, last, unreported, Bool.or_false]

theorem foldConstants_eq_foldRound (function : Function) :
    foldConstants function = ⟨function.foldConstants, (foldRound function).changed⟩ :=
  foldRounds_eq false function

end Edit

end PassScheduler
