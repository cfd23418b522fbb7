import PassScheduler.Program.Basic
import PassScheduler.Transform.Edit

/-!
Contract: a branch whose outcome is known becomes a jump.

Owns: the two cases, a condition that is an immediate and two equal labels.

Does not own: blocks that nothing jumps to any more.
-/

namespace PassScheduler

/-- The label that a terminator is known to go to although it is written as a branch. -/
def Terminator.knownTarget? : Terminator → Option String
  | .br (.imm n) thenLabel elseLabel => some (if n ≠ 0 then thenLabel else elseLabel)
  | .br (.value _) thenLabel elseLabel =>
      if thenLabel = elseLabel then some thenLabel else none
  | _ => none

namespace Edit

def simplifyTerm (term : Terminator) : Edited Terminator :=
  match term.knownTarget? with
  | some target => .replaced (.jmp target)
  | none => pure term

def simplifyBranches : Function → Edited Function :=
  Function.editBlocks (Block.edit pure simplifyTerm)

end Edit

end PassScheduler
