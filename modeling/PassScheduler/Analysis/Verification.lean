import PassScheduler.Collection.FirstRepeat
import PassScheduler.Program.Printer

/-!
Contract: the rules that a program must keep before other passes may rely on it.

Owns: the violations and their wording, the order in which they are looked for, and the first one
of a program. Function by function: its name, its blocks, their labels, its definitions, and then
block by block what is used before what is jumped to.

Does not own: the mark that a program has been checked.
-/

namespace PassScheduler

/-- A broken rule, with what breaks it. -/
inductive Violation where
  | repeatedFunction
  | noBlocks
  | repeatedLabel (label : String)
  | repeatedValue (id : ValueId)
  | undefinedValue (id : ValueId) (label : String)
  | unknownTarget (label target : String)
deriving DecidableEq, Repr

def Violation.message : Violation → String
  | .repeatedFunction => "function defined more than once"
  | .noBlocks => "function has no blocks"
  | .repeatedLabel label => "block label '" ++ label ++ "' used more than once"
  | .repeatedValue id => "value " ++ id.text ++ " defined more than once"
  | .undefinedValue id label =>
      "use of undefined value " ++ id.text ++ " in block '" ++ label ++ "'"
  | .unknownTarget label target =>
      "block '" ++ label ++ "' jumps to unknown block '" ++ target ++ "'"

/-- The first rule that a block breaks in a function with the given definitions and labels. -/
def Block.violation? (definitions : List ValueId) (labels : List String) (block : Block) :
    Option Violation :=
  match (valuesIn block.operands).find? (· ∉ definitions) with
  | some id => some (.undefinedValue id block.label)
  | none =>
      (block.term.successors.find? (· ∉ labels)).map (.unknownTarget block.label)

/-- The first rule that a function breaks on its own. -/
def Function.violation? (function : Function) : Option Violation :=
  if function.blocks = [] then
    some .noBlocks
  else match firstRepeat? [] function.labels with
  | some label => some (.repeatedLabel label)
  | none =>
      match firstRepeat? [] function.definitions with
      | some id => some (.repeatedValue id)
      | none => function.blocks.findSome? (·.violation? function.definitions function.labels)

/-- The first broken rule among functions, with the name of the function that breaks it, when
functions of the given names came before. -/
def firstViolation? (names : List String) : List Function → Option (String × Violation)
  | [] => none
  | function :: rest =>
      if function.name ∈ names then
        some (function.name, .repeatedFunction)
      else match function.violation? with
      | some violation => some (function.name, violation)
      | none => firstViolation? (function.name :: names) rest

end PassScheduler
