import PassScheduler.Program.Basic
import PassScheduler.Transform.Edit

/-!
Contract: operations on known numbers are carried out before the program runs.

A round first notes which values are known to be constant, then puts the constants in the place
of their uses and carries out every operation that has become one on immediates. Rounds are
repeated until one reports no change; each round that reports one makes the function lighter.

Owns: the round, its weight and the repetition.

Does not own: operations that are known without all of their operands.
-/

namespace PassScheduler

namespace Op

/-- The number that an operation is, if it is written as one. -/
def constant? : Op → Option Int64
  | .const n => some n
  | .copy (.imm n) => some n
  | _ => none

/-- The number that an operation on immediates comes to, if it has a value. -/
def folded? : Op → Option Int64
  | .binary op (.imm lhs) (.imm rhs) => op.eval lhs rhs
  | .copy (.imm n) => some n
  | _ => none

/-- What is left to fold: the operation itself unless it is a constant, and each value in it. -/
def weight : Op → Nat
  | .const _ => 0
  | op => 1 + (valuesIn op.operands).length

end Op

/-- The number that a value is known to be: the last that an instruction writes to it outright. -/
def Function.constantOf? (function : Function) (id : ValueId) : Option Int64 :=
  function.insts.reverse.findSome? fun inst =>
    if inst.dest = id then inst.op.constant? else none

/-- What is left to fold in a block. -/
def Block.foldWeight (block : Block) : Nat :=
  totalWeight (fun inst => inst.op.weight) block.insts + (valuesIn block.term.operands).length

/-- What is left to fold in a function. -/
def Function.foldWeight (function : Function) : Nat :=
  totalWeight Block.foldWeight function.blocks

namespace Edit

/-- A value that is known replaced by its number. -/
def substitute (known : ValueId → Option Int64) : Operand → Edited Operand
  | .value id =>
      match known id with
      | some n => .replaced (.imm n)
      | none => pure (.value id)
  | .imm n => pure (.imm n)

/-- An operation on immediates carried out, if it has a value. -/
def carryOut (op : Op) : Edited Op :=
  match op.folded? with
  | some n => .replaced (.const n)
  | none => pure op

def foldOp (known : ValueId → Option Int64) (op : Op) : Edited Op :=
  op.editOperands (substitute known) >>= carryOut

def foldBlock (known : ValueId → Option Int64) : Block → Edited Block :=
  Block.edit (Edited.each (Inst.edit (foldOp known))) (Terminator.editOperands (substitute known))

/-- One round of folding. -/
def foldRound (function : Function) : Edited Function :=
  function.editBlocks (foldBlock function.constantOf?)

private theorem substitute_lightens (known : ValueId → Option Int64) :
    Lightens (fun operand => (valuesIn [operand]).length) (substitute known) := by
  intro operand
  cases operand with
  | imm n => exact .inl rfl
  | value id =>
      cases found : known id with
      | none => exact .inl (by simp [substitute, found])
      | some n => exact .inr (by simp [substitute, found, valuesIn, Operand.value?])

private theorem valuesIn_pair_length (first second : Operand) :
    (valuesIn [first, second]).length =
      (valuesIn [first]).length + (valuesIn [second]).length := by
  cases first <;> cases second <;> rfl

theorem op_substitute_lightens (known : ValueId → Option Int64) :
    Lightens Op.weight (Op.editOperands (substitute known)) := by
  intro op
  cases op with
  | const n => exact .inl rfl
  | copy source =>
      rcases substitute_lightens known source with same | ⟨changed, fewer⟩
      · exact .inl (by rw [Op.editOperands, same]; rfl)
      · exact .inr ⟨by simp [Op.editOperands, changed], Nat.add_lt_add_left fewer 1⟩
  | binary op lhs rhs =>
      simp only [Op.editOperands, Op.weight, Op.operands, valuesIn_pair_length,
        Edited.changed_bind, Edited.value_bind, Edited.changed_pure, Edited.value_pure,
        Bool.or_false]
      rcases substitute_lightens known lhs with lhsSame | ⟨lhsChanged, lhsFewer⟩ <;>
        rcases substitute_lightens known rhs with rhsSame | ⟨rhsChanged, rhsFewer⟩
      · exact .inl (by rw [lhsSame, rhsSame]; rfl)
      · exact .inr ⟨by rw [rhsChanged, Bool.or_true],
          by rw [lhsSame]; exact Nat.add_lt_add_left (Nat.add_lt_add_left rhsFewer _) 1⟩
      · exact .inr ⟨by rw [lhsChanged, Bool.true_or],
          by rw [rhsSame]; exact Nat.add_lt_add_left (Nat.add_lt_add_right lhsFewer _) 1⟩
      · exact .inr ⟨by rw [lhsChanged, Bool.true_or],
          Nat.add_lt_add_left (Nat.add_lt_add lhsFewer rhsFewer) 1⟩

theorem carryOut_lightens : Lightens Op.weight carryOut := by
  intro op
  unfold carryOut
  cases folded : op.folded? with
  | none => exact .inl rfl
  | some n =>
      refine .inr ⟨rfl, ?_⟩
      cases op with
      | const m => cases folded
      | copy source => exact Nat.lt_of_lt_of_le Nat.zero_lt_one (Nat.le_add_right _ _)
      | binary kind lhs rhs => exact Nat.lt_of_lt_of_le Nat.zero_lt_one (Nat.le_add_right _ _)

theorem foldOp_lightens (known : ValueId → Option Int64) : Lightens Op.weight (foldOp known) :=
  (op_substitute_lightens known).andThen carryOut_lightens

theorem term_substitute_lightens (known : ValueId → Option Int64) :
    Lightens (fun term => (valuesIn term.operands).length)
      (Terminator.editOperands (substitute known)) := by
  intro term
  cases term with
  | jmp target => exact .inl rfl
  | ret result =>
      rcases substitute_lightens known result with same | ⟨changed, fewer⟩
      · exact .inl (by rw [Terminator.editOperands, same]; rfl)
      · exact .inr ⟨by simp [Terminator.editOperands, changed], fewer⟩
  | br condition thenLabel elseLabel =>
      rcases substitute_lightens known condition with same | ⟨changed, fewer⟩
      · exact .inl (by rw [Terminator.editOperands, same]; rfl)
      · exact .inr ⟨by simp [Terminator.editOperands, changed], fewer⟩

/-- A round that reports a change leaves less to fold. -/
theorem foldRound_lightens : Lightens Function.foldWeight foldRound := by
  intro function
  have insts := (foldOp_lightens function.constantOf?).inst.each
  exact (insts.block (term_substitute_lightens function.constantOf?)).editBlocks function

theorem foldRound_lighter {function : Function} (changed : (foldRound function).changed = true) :
    (foldRound function).value.foldWeight < function.foldWeight := by
  rcases foldRound_lightens function with same | ⟨_, lighter⟩
  · rw [same] at changed
    cases changed
  · exact lighter

/-- Rounds of folding until one reports no change, given whether an earlier one reported any. -/
def foldRounds (changed : Bool) (function : Function) : Edited Function :=
  let round := foldRound function
  if round.changed then foldRounds true round.value else ⟨round.value, changed⟩
termination_by function.foldWeight
decreasing_by exact foldRound_lighter ‹_›

def foldConstants : Function → Edited Function :=
  foldRounds false

end Edit

end PassScheduler
