import PassScheduler.Program.Basic
import PassScheduler.Transform.Edit

/-!
Contract: instructions whose result is not live are dropped.

Owns: what is dropped, given which values are live. A function of which nothing is known keeps
all of its instructions.

Does not own: how the live values are found, or whether they are those of the function as it is.
-/

namespace PassScheduler.Edit

def dropDead (sets : LiveSets) (function : Function) : Edited Function :=
  match sets.values? function.name with
  | none => pure function
  | some live =>
      function.editBlocks (Block.edit (Edited.retain fun inst => live.contains inst.dest) pure)

end PassScheduler.Edit
