/-!
Contract: the code that passes work on: functions of labelled basic blocks, three-address
instructions over values that are named by number, and one terminator per block.

Owns:
- the types from operands to functions, none of which is checked for sense;
- the arithmetic of binary operations on immediates;
- what an instruction or a terminator uses, defines and jumps to.

Does not own: the text form, the checks, or any change of the code.
-/

namespace PassScheduler

/-- The number that names a value inside one function. -/
structure ValueId where
  index : UInt32
deriving DecidableEq, Repr

/-- What an instruction or a terminator reads: a value or an immediate. -/
inductive Operand where
  | value (id : ValueId)
  | imm (n : Int64)
deriving DecidableEq, Repr

namespace Operand

def value? : Operand → Option ValueId
  | .value id => some id
  | .imm _ => none

def imm? : Operand → Option Int64
  | .value _ => none
  | .imm n => some n

end Operand

/-- The values among some operands, in order. -/
def valuesIn (operands : List Operand) : List ValueId :=
  operands.filterMap Operand.value?

inductive BinOp where
  | add
  | sub
  | mul
  | div
  | eq
  | lt
deriving DecidableEq, Repr

namespace BinOp

def mnemonic : BinOp → String
  | .add => "add"
  | .sub => "sub"
  | .mul => "mul"
  | .div => "div"
  | .eq => "eq"
  | .lt => "lt"

/-- The value of an operation on immediates. Sums, differences and products wrap, comparisons
give one or zero, and a quotient is truncated; a quotient that does not exist or does not fit
has no value. -/
def eval (op : BinOp) (lhs rhs : Int64) : Option Int64 :=
  match op with
  | .add => some (lhs + rhs)
  | .sub => some (lhs - rhs)
  | .mul => some (lhs * rhs)
  | .div =>
      if rhs = 0 ∨ (lhs = Int64.minValue ∧ rhs = -1) then none else some (lhs / rhs)
  | .eq => some (if lhs = rhs then 1 else 0)
  | .lt => some (if lhs < rhs then 1 else 0)

end BinOp

/-- The right-hand side of an instruction. -/
inductive Op where
  | const (n : Int64)
  | copy (source : Operand)
  | binary (op : BinOp) (lhs rhs : Operand)
deriving DecidableEq, Repr

namespace Op

/-- The operands in the order in which they are written. A constant has none. -/
def operands : Op → List Operand
  | .const _ => []
  | .copy source => [source]
  | .binary _ lhs rhs => [lhs, rhs]

def mapOperands (f : Operand → Operand) : Op → Op
  | .const n => .const n
  | .copy source => .copy (f source)
  | .binary op lhs rhs => .binary op (f lhs) (f rhs)

end Op

/-- `dest = op`. -/
structure Inst where
  dest : ValueId
  op : Op
deriving DecidableEq, Repr

/-- How a block ends. A branch takes its first label iff its operand is not zero. -/
inductive Terminator where
  | ret (result : Operand)
  | jmp (target : String)
  | br (condition : Operand) (thenLabel elseLabel : String)
deriving DecidableEq, Repr

namespace Terminator

def operands : Terminator → List Operand
  | .ret result => [result]
  | .jmp _ => []
  | .br condition _ _ => [condition]

def mapOperands (f : Operand → Operand) : Terminator → Terminator
  | .ret result => .ret (f result)
  | .jmp target => .jmp target
  | .br condition thenLabel elseLabel => .br (f condition) thenLabel elseLabel

/-- The labels that may come next, in the order in which they are written. -/
def successors : Terminator → List String
  | .ret _ => []
  | .jmp target => [target]
  | .br _ thenLabel elseLabel => [thenLabel, elseLabel]

end Terminator

structure Block where
  label : String
  insts : List Inst
  term : Terminator
deriving DecidableEq, Repr

namespace Block

/-- Every operand of the block: those of the instructions in order, then the terminator's. -/
def operands (block : Block) : List Operand :=
  block.insts.flatMap (fun inst => inst.op.operands) ++ block.term.operands

end Block

structure Function where
  name : String
  params : List ValueId
  blocks : List Block
deriving DecidableEq, Repr

namespace Function

/-- The instructions of all blocks, in order. -/
def insts (function : Function) : List Inst :=
  function.blocks.flatMap Block.insts

def instCount (function : Function) : Nat :=
  function.insts.length

def labels (function : Function) : List String :=
  function.blocks.map Block.label

/-- Every value that the function gives a meaning to: its parameters, then the destinations of
its instructions. -/
def definitions (function : Function) : List ValueId :=
  function.params ++ function.insts.map Inst.dest

/-- The first block of that label. -/
def block? (function : Function) (label : String) : Option Block :=
  function.blocks.find? fun block => block.label = label

/-- The function with each block changed on its own. -/
def mapBlocks (f : Block → Block) (function : Function) : Function :=
  { function with blocks := function.blocks.map f }

end Function

end PassScheduler
