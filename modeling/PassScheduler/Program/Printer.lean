import PassScheduler.Program.Basic

/-!
Contract: the text form of programs.

Owns: one text for every operand, instruction, terminator, block, function and program. A block
is its label and two-space indented lines; functions are separated by an empty line.

Does not own: the reader of that form.
-/

namespace PassScheduler

def ValueId.text (id : ValueId) : String :=
  "%" ++ id.index.toNat.repr

def Operand.text : Operand → String
  | .value id => id.text
  | .imm n => n.toInt.repr

def Op.text : Op → String
  | .const n => "const " ++ n.toInt.repr
  | .copy source => "copy " ++ source.text
  | .binary op lhs rhs => op.mnemonic ++ " " ++ lhs.text ++ ", " ++ rhs.text

def Inst.text (inst : Inst) : String :=
  inst.dest.text ++ " = " ++ inst.op.text

def Terminator.text : Terminator → String
  | .ret result => "ret " ++ result.text
  | .jmp target => "jmp " ++ target
  | .br condition thenLabel elseLabel =>
      "br " ++ condition.text ++ ", " ++ thenLabel ++ ", " ++ elseLabel

def Block.text (block : Block) : String :=
  block.label ++ ":\n" ++
    String.join (block.insts.map fun inst => "  " ++ inst.text ++ "\n") ++
    "  " ++ block.term.text ++ "\n"

def Function.text (function : Function) : String :=
  "fn " ++ function.name ++ "(" ++
    String.intercalate ", " (function.params.map ValueId.text) ++ ") \x7b\n" ++
    String.join (function.blocks.map Block.text) ++ "\x7d\n"

def Program.text (program : Program) : String :=
  String.intercalate "\n" (program.functions.map Function.text)

end PassScheduler
