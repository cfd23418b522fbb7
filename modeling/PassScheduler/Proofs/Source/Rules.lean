import PassScheduler.Proofs.Source.Automaton

/-!
Contract: which tokens spell which programs.

    module   := nl* (function nl*)*
    function := 'fn' IDENT '(' (VALUE (',' VALUE)*)? ')' '{' nl* block+ '}'
    block    := IDENT ':' nl+ (inst nl+)* term nl+
    inst     := VALUE '=' ('const' INT | 'copy' operand | BINOP operand ',' operand)
    term     := 'ret' operand | 'jmp' IDENT | 'br' operand ',' IDENT ',' IDENT
    operand  := VALUE | INT

Owns:
- a relation for each of these rules, between the tokens that it derives and what they stand for;
- that a line end may follow wherever the rules allow some.

Does not own: how tokens are read.
-/

namespace PassScheduler.Grammar

/-- A rule relates the tokens that it derives to what they stand for. -/
abbrev Rule (α : Type) := List Token → α → Prop

section Repetition

variable {α : Type}

/-- Any number of items: `rule*`. -/
inductive Many (rule : Rule α) : Rule (List α)
  | none : Many rule [] []
  | more {before last : List Token} {items : List α} {item : α} :
      Many rule before items → rule last item → Many rule (before ++ last) (items ++ [item])

/-- At least so many line ends: `nl*` or `nl+`. -/
def LineEnds (least : Nat) (tokens : List Token) : Prop :=
  ∃ count, least ≤ count ∧ tokens = List.replicate count .newline

/-- An item with line ends after it: `rule nl*` or `rule nl+`. -/
inductive Ended (least : Nat) (rule : Rule α) : Rule α
  | ended {tokens ends : List Token} {item : α} :
      rule tokens item → LineEnds least ends → Ended least rule (tokens ++ ends) item

/-- Items with line ends before them: `nl* rule*` or `nl+ rule*`. -/
inductive Led (least : Nat) (rule : Rule α) : Rule (List α)
  | led {ends tokens : List Token} {items : List α} :
      LineEnds least ends → Many rule tokens items → Led least rule (ends ++ tokens) items

end Repetition

inductive OperandRule : Rule Operand
  | value (id : ValueId) : OperandRule [.value id] (.value id)
  | int (n : Int64) : OperandRule [.int n] (.imm n)

inductive InstRule : Rule Inst
  | const (dest : ValueId) (n : Int64) :
      InstRule [.value dest, .equals, .const, .int n] ⟨dest, .const n⟩
  | copy {tokens : List Token} {source : Operand} (dest : ValueId) :
      OperandRule tokens source →
        InstRule (.value dest :: .equals :: .copy :: tokens) ⟨dest, .copy source⟩
  | binary {left right : List Token} {lhs rhs : Operand} (dest : ValueId) (op : BinOp) :
      OperandRule left lhs → OperandRule right rhs →
        InstRule (.value dest :: .equals :: .mnemonic op :: (left ++ .comma :: right))
          ⟨dest, .binary op lhs rhs⟩

inductive TermRule : Rule Terminator
  | ret {tokens : List Token} {result : Operand} :
      OperandRule tokens result → TermRule (.ret :: tokens) (.ret result)
  | jmp (target : String) : TermRule [.jmp, .ident target] (.jmp target)
  | br {tokens : List Token} {condition : Operand} (thenLabel elseLabel : String) :
      OperandRule tokens condition →
        TermRule (.br :: (tokens ++ [.comma, .ident thenLabel, .comma, .ident elseLabel]))
          (.br condition thenLabel elseLabel)

inductive BlockRule : Rule Block
  | block {body last : List Token} {insts : List Inst} {term : Terminator} (label : String) :
      Led 1 (Ended 1 InstRule) body insts → Ended 1 TermRule last term →
        BlockRule (.ident label :: .colon :: (body ++ last)) ⟨label, insts, term⟩

/-- Values with commas between them: `VALUE (',' VALUE)*`. -/
inductive ValuesRule : Rule (List ValueId)
  | first (id : ValueId) : ValuesRule [.value id] [id]
  | next {tokens : List Token} {ids : List ValueId} (id : ValueId) :
      ValuesRule tokens ids → ValuesRule (tokens ++ [.comma, .value id]) (ids ++ [id])

/-- The same or nothing: `(VALUE (',' VALUE)*)?`. -/
inductive ParamsRule : Rule (List ValueId)
  | none : ParamsRule [] []
  | some {tokens : List Token} {ids : List ValueId} : ValuesRule tokens ids → ParamsRule tokens ids

inductive FunctionRule : Rule Function
  | function {inner body : List Token} {params : List ValueId} {blocks : List Block}
      (name : String) :
      ParamsRule inner params → Led 0 BlockRule body blocks → blocks ≠ [] →
        FunctionRule
          (.fn :: .ident name :: .leftParen ::
            (inner ++ .rightParen :: .leftBrace :: (body ++ [.rightBrace])))
          ⟨name, params, blocks⟩

/-- The tokens of whole programs. -/
def ModuleRule : Rule (List Function) :=
  Led 0 (Ended 0 FunctionRule)

/-! ## Line ends -/

section LineEnds

variable {α : Type} {least : Nat} {rule : Rule α} {tokens : List Token}

/-- A rule that goes on to hold when a line end is added. -/
def Endable (rule : Rule α) : Prop :=
  ∀ tokens item, rule tokens item → rule (tokens ++ [.newline]) item

theorem LineEnds.nil : LineEnds 0 [] :=
  ⟨0, Nat.le_refl 0, rfl⟩

theorem LineEnds.one : LineEnds 1 [.newline] :=
  ⟨1, Nat.le_refl 1, rfl⟩

theorem LineEnds.newline (ends : LineEnds least tokens) :
    LineEnds least (tokens ++ [.newline]) := by
  obtain ⟨count, enough, rfl⟩ := ends
  exact ⟨count + 1, by omega, List.replicate_succ'.symm⟩

theorem endable_ended : Endable (Ended least rule) := by
  rintro _ _ ⟨spelled, ends⟩
  rw [List.append_assoc]
  exact .ended spelled ends.newline

/-- A line end belongs to the last item, or to the lead if there is none. -/
theorem endable_led (endable : Endable rule) : Endable (Led least rule) := by
  rintro _ _ ⟨ends, items⟩
  cases items with
  | none =>
      have noItem : Many rule [] [] := .none
      simpa using Led.led ends.newline noItem
  | more before last =>
      simpa using Led.led ends (.more before (endable _ _ last))

theorem endable_blockRule : Endable BlockRule := by
  rintro _ _ ⟨label, insts, term⟩
  simpa using BlockRule.block label insts (endable_ended _ _ term)

theorem endable_moduleRule : Endable ModuleRule :=
  endable_led endable_ended

theorem Led.more {more : List Token} {items : List α} {item : α}
    (led : Led least rule tokens items) (last : rule more item) :
    Led least rule (tokens ++ more) (items ++ [item]) := by
  obtain ⟨ends, before⟩ := led
  rw [List.append_assoc]
  exact .led ends (before.more last)

end LineEnds

end PassScheduler.Grammar
