import PassScheduler.Program.Basic
import PassScheduler.Transform.Edit

/-!
Contract: operations whose result follows from one operand, or from none, are written as such.

Owns: the laws of zero and one for sums, differences and products, and that a value less itself
is zero.

Does not own: operations on two immediates, unless one of these laws covers them.
-/

namespace PassScheduler

/-- The simpler form of an operation, if a law gives it one. -/
def Op.simplified? : Op → Option Op
  | .binary .add x (.imm 0) => some (.copy x)
  | .binary .add (.imm 0) x => some (.copy x)
  | .binary .sub x (.imm 0) => some (.copy x)
  | .binary .mul x (.imm 1) => some (.copy x)
  | .binary .mul (.imm 1) x => some (.copy x)
  | .binary .mul _ (.imm 0) => some (.const 0)
  | .binary .mul (.imm 0) _ => some (.const 0)
  | .binary .sub (.value a) (.value b) => if a = b then some (.const 0) else none
  | _ => none

namespace Edit

def simplifyOp (op : Op) : Edited Op :=
  match op.simplified? with
  | some simpler => .replaced simpler
  | none => pure op

def simplifyOps : Function → Edited Function :=
  Function.editBlocks (Block.edit (Edited.each (Inst.edit simplifyOp)) pure)

end Edit

end PassScheduler
