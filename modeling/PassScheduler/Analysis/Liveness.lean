import PassScheduler.Graph.Search
import PassScheduler.Program.Basic

/-!
Contract: the values on which the outcome of a function can depend.

Owns: the values that terminators use, directly or through the instructions that define them.
Where several instructions define one value, the last of them counts.

Does not own: what is done with instructions whose result nobody needs.
-/

namespace PassScheduler

namespace Function

/-- What the last instruction that defines a value computes. -/
def definingOp? (function : Function) (id : ValueId) : Option Op :=
  (function.insts.reverse.find? fun inst => inst.dest = id).map Inst.op

/-- The values from which a value is computed in one step. -/
def neededFor (function : Function) (id : ValueId) : List ValueId :=
  match function.definingOp? id with
  | none => []
  | some op => valuesIn op.operands

/-- The values that terminators use. -/
def demandedValues (function : Function) : List ValueId :=
  valuesIn (function.blocks.flatMap fun block => block.term.operands)

/-- Every value that the function uses anywhere. -/
def usedValues (function : Function) : List ValueId :=
  valuesIn (function.blocks.flatMap Block.operands)

/-- The live values of a function, in ascending order and each once. -/
def liveValues (function : Function) : List ValueId :=
  (Search.reachable function.neededFor function.usedValues function.demandedValues).mergeSort
    fun first second => decide (first.index ≤ second.index)

end Function

/-- The live values of every function. -/
def LiveSets.ofFunctions (functions : List Function) : LiveSets where
  sets := functions.map fun function => (function.name, function.liveValues)

end PassScheduler
