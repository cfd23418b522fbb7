import Mathlib.Computability.Language
import PassScheduler.Proofs.Source.Reading

/-!
Contract: the reader accepts what the rules derive and nothing else.

Every place has a language, the tokens that the rules allow up to there. A move adds its token to
the language of the place that it comes from, so the tokens of a run are in the language of the
place where it ends. Outside of functions this is the language of whole programs.

Owns:
- the language of each place, and that moves keep to it;
- that a run to the end of a program is a derivation of it, and that derivations are unique.

Does not own: what is said of tokens that are refused.
-/

namespace PassScheduler

/-- The token that stands for an operand. -/
def Operand.token : Operand → Token
  | .value id => .value id
  | .imm n => .int n

namespace Grammar

theorem operandRule_of_operand? {token : Token} {operand : Operand}
    (isOperand : token.operand? = some operand) :
    OperandRule [token] operand := by
  cases token <;> cases isOperand
  · exact .value _
  · exact .int _

theorem operandRule_token (operand : Operand) : OperandRule [operand.token] operand := by
  cases operand with
  | value id => exact .value id
  | imm n => exact .int n

theorem token_of_operand? {token : Token} {operand : Operand}
    (isOperand : token.operand? = some operand) :
    token = operand.token := by
  cases token <;> cases isOperand <;> rfl

/-! ## Inside a line -/

/-- What was read of an instruction at some place in it. -/
def InstPlace.tokens : InstPlace → List Token
  | .equals dest => [.value dest]
  | .operation dest => [.value dest, .equals]
  | .const dest => [.value dest, .equals, .const]
  | .copy dest => [.value dest, .equals, .copy]
  | .binary dest op => [.value dest, .equals, .mnemonic op]
  | .binaryComma dest op lhs => [.value dest, .equals, .mnemonic op, lhs.token]
  | .binaryRhs dest op lhs => [.value dest, .equals, .mnemonic op, lhs.token, .comma]

/-- What was read of a terminator at some place in it. -/
def TermPlace.tokens : TermPlace → List Token
  | .ret => [.ret]
  | .jmp => [.jmp]
  | .br => [.br]
  | .brComma condition => [.br, condition.token]
  | .brThen condition => [.br, condition.token, .comma]
  | .brThenComma condition thenLabel => [.br, condition.token, .comma, .ident thenLabel]
  | .brElse condition thenLabel => [.br, condition.token, .comma, .ident thenLabel, .comma]

/-- A token leads on inside the instruction, or it completes one. -/
theorem InstPlace.keeps_step {place : InstPlace} {token : Token} {next : InstPlace ⊕ Inst}
    (moved : place.step token = some next) :
    next.elim (fun further => further.tokens = place.tokens ++ [token])
      (InstRule (place.tokens ++ [token])) := by
  cases place with
  | equals dest => cases token <;> cases moved; rfl
  | operation dest => cases token <;> cases moved <;> rfl
  | const dest => cases token <;> cases moved; exact .const dest _
  | copy dest =>
      obtain ⟨source, isOperand, rfl⟩ := Option.map_eq_some_iff.1 moved
      exact .copy dest (operandRule_of_operand? isOperand)
  | binary dest op =>
      obtain ⟨lhs, isOperand, rfl⟩ := Option.map_eq_some_iff.1 moved
      rw [token_of_operand? isOperand]
      rfl
  | binaryComma dest op lhs => cases token <;> cases moved; rfl
  | binaryRhs dest op lhs =>
      obtain ⟨rhs, isOperand, rfl⟩ := Option.map_eq_some_iff.1 moved
      exact .binary dest op (operandRule_token lhs) (operandRule_of_operand? isOperand)

/-- A token leads on inside the terminator, or it completes one. -/
theorem TermPlace.keeps_step {place : TermPlace} {token : Token} {next : TermPlace ⊕ Terminator}
    (moved : place.step token = some next) :
    next.elim (fun further => further.tokens = place.tokens ++ [token])
      (TermRule (place.tokens ++ [token])) := by
  cases place with
  | ret =>
      obtain ⟨result, isOperand, rfl⟩ := Option.map_eq_some_iff.1 moved
      exact .ret (operandRule_of_operand? isOperand)
  | jmp => cases token <;> cases moved; exact .jmp _
  | br =>
      obtain ⟨condition, isOperand, rfl⟩ := Option.map_eq_some_iff.1 moved
      rw [token_of_operand? isOperand]
      rfl
  | brComma condition => cases token <;> cases moved; rfl
  | brThen condition => cases token <;> cases moved; rfl
  | brThenComma condition thenLabel => cases token <;> cases moved; rfl
  | brElse condition thenLabel =>
      cases token <;> cases moved
      exact .br thenLabel _ (operandRule_token condition)

/-! ## The language of a place -/

section Language

/-- The token and nothing else. -/
def one (token : Token) : Language Token :=
  {[token]}

/-- The tokens that stand for an item by some rule. -/
def spellings {α : Type} (rule : Rule α) (item : α) : Language Token :=
  {tokens | rule tokens item}

/-- Up to the parameters of a function of that name. -/
def headLanguage (functions : List Function) (name : String) : Language Token :=
  spellings ModuleRule functions * one .fn * one (.ident name) * one .leftParen

/-- Up to the last block that the function has. -/
def blocksLanguage (functions : List Function) (function : Function) : Language Token :=
  headLanguage functions function.name * spellings ParamsRule function.params *
    one .rightParen * one .leftBrace * spellings (Led 0 BlockRule) function.blocks

/-- Up to the last instruction that the block has. -/
def linesLanguage (functions : List Function) (block : OpenBlock) : Language Token :=
  blocksLanguage functions block.function * one (.ident block.label) * one .colon *
    spellings (Led 1 (Ended 1 InstRule)) block.insts

/-- The tokens that the rules allow up to a place. Where a line end has to come next, they are
those that it completes; where only some functions can be, the language of any other is empty. -/
def Place.language (functions : List Function) : Place → Language Token
  | .outside => spellings ModuleRule functions
  | .functionName => spellings ModuleRule functions * one .fn
  | .parameterList name => spellings ModuleRule functions * one .fn * one (.ident name)
  | .firstParameter name => headLanguage functions name
  | .afterParameter name params =>
      headLanguage functions name * spellings ValuesRule params
  | .nextParameter name params =>
      headLanguage functions name * spellings ValuesRule params * one .comma
  | .body function =>
      {tokens | tokens ∈ headLanguage functions function.name *
        spellings ParamsRule function.params * one .rightParen ∧ function.blocks = []}
  | .firstLabel function => blocksLanguage functions function
  | .labelColon function label => blocksLanguage functions function * one (.ident label)
  | .lineBreak block => {tokens | tokens ++ [.newline] ∈ linesLanguage functions block}
  | .line block => linesLanguage functions block
  | .inInst block place => linesLanguage functions block * {place.tokens}
  | .inTerm block place => linesLanguage functions block * {place.tokens}
  | .blockBreak function =>
      {tokens | tokens ++ [.newline] ∈ blocksLanguage functions function ∧ function.blocks ≠ []}
  | .nextLabel function =>
      {tokens | tokens ∈ blocksLanguage functions function ∧ function.blocks ≠ []}

variable {functions : List Function} {tokens more : List Token} {token : Token}
variable {before : Language Token}

theorem append_one_mem (mem : tokens ∈ before) : tokens ++ [token] ∈ before * one token :=
  Language.append_mem_mul mem rfl

/-- What may follow may follow with a line end. -/
theorem append_newline_mem {α : Type} {rule : Rule α} {item : α} (endable : Endable rule)
    (mem : tokens ∈ before * spellings rule item) :
    tokens ++ [.newline] ∈ before * spellings rule item := by
  obtain ⟨first, isFirst, last, derived, rfl⟩ := Language.mem_mul.1 mem
  rw [List.append_assoc]
  exact Language.append_mem_mul isFirst (endable last item derived)

theorem append_more_mem {α : Type} {rule : Rule α} {least : Nat} {items : List α} {item : α}
    (mem : tokens ∈ before * spellings (Led least rule) items) (last : rule more item) :
    tokens ++ more ∈ before * spellings (Led least rule) (items ++ [item]) := by
  obtain ⟨first, isFirst, rest, derived, rfl⟩ := Language.mem_mul.1 mem
  rw [List.append_assoc]
  exact Language.append_mem_mul isFirst (derived.more last)

theorem append_nil_mem {α : Type} {rule : Rule α} {item : α} (empty : rule [] item)
    (mem : tokens ∈ before) :
    tokens ∈ before * spellings rule item := by
  rw [← tokens.append_nil]
  exact Language.append_mem_mul mem empty

theorem led_nil {α : Type} (rule : Rule α) : Led 0 rule [] [] :=
  .led .nil .none

/-! ## Moves -/

theorem keeps_parameter {name : String} {params : List ValueId} {id : ValueId}
    (mem : tokens ∈ Place.language functions (.nextParameter name params)) :
    tokens ++ [.value id] ∈ Place.language functions (.afterParameter name (params ++ [id])) := by
  obtain ⟨upTo, isUpTo, _, rfl, rfl⟩ := Language.mem_mul.1 mem
  obtain ⟨head, isHead, inner, values, rfl⟩ := Language.mem_mul.1 isUpTo
  have oneMore : inner ++ [.comma, .value id] ∈ spellings ValuesRule (params ++ [id]) :=
    .next id values
  have added : _ ∈ Place.language functions (.afterParameter name (params ++ [id])) :=
    Language.append_mem_mul isHead oneMore
  simpa using added

theorem keeps_inst {block : OpenBlock} {place : InstPlace} {moved : InstPlace ⊕ Inst}
    (step : place.step token = some moved)
    (mem : tokens ∈ Place.language functions (.inInst block place)) :
    tokens ++ [token] ∈ Place.language functions
      (moved.elim (.inInst block) fun inst => .lineBreak (block.push inst)) := by
  obtain ⟨lines, isLines, _, rfl, rfl⟩ := Language.mem_mul.1 mem
  have keeps := InstPlace.keeps_step step
  rw [List.append_assoc]
  cases moved with
  | inl further => exact Language.append_mem_mul isLines keeps.symm
  | inr inst =>
      show _ ++ [Token.newline] ∈ linesLanguage functions (block.push inst)
      rw [List.append_assoc]
      exact append_more_mem isLines (.ended keeps .one)

theorem keeps_term {block : OpenBlock} {place : TermPlace} {moved : TermPlace ⊕ Terminator}
    (step : place.step token = some moved)
    (mem : tokens ∈ Place.language functions (.inTerm block place)) :
    tokens ++ [token] ∈ Place.language functions
      (moved.elim (.inTerm block) fun term => .blockBreak (block.close term)) := by
  obtain ⟨lines, isLines, _, rfl, rfl⟩ := Language.mem_mul.1 mem
  have keeps := TermPlace.keeps_step step
  rw [List.append_assoc]
  cases moved with
  | inl further => exact Language.append_mem_mul isLines keeps.symm
  | inr term =>
      refine ⟨?_, by simp [OpenBlock.close]⟩
      -- The label and the lines since the last block are, with the terminator, one more block.
      obtain ⟨upToColon, isUpToColon, body, insts, rfl⟩ := Language.mem_mul.1 isLines
      obtain ⟨upToLabel, isUpToLabel, _, rfl, rfl⟩ := Language.mem_mul.1 isUpToColon
      obtain ⟨blocks, isBlocks, _, rfl, rfl⟩ := Language.mem_mul.1 isUpToLabel
      have added : _ ∈ blocksLanguage functions (block.close term) :=
        append_more_mem isBlocks (BlockRule.block block.label insts (.ended keeps .one))
      simpa using added

theorem Place.keeps_step {place next : Place} (moved : place.step token = some next)
    (mem : tokens ∈ place.language functions) :
    tokens ++ [token] ∈ next.language functions := by
  cases place with
  | outside =>
      cases token <;> cases moved
      · exact append_one_mem mem
      · exact endable_moduleRule _ _ mem
  | functionName => cases token <;> cases moved; exact append_one_mem mem
  | parameterList name => cases token <;> cases moved; exact append_one_mem mem
  | firstParameter name =>
      cases token <;> cases moved
      · exact ⟨append_one_mem (append_nil_mem .none mem), rfl⟩
      · exact Language.append_mem_mul mem (ValuesRule.first _)
  | afterParameter name params =>
      cases token <;> cases moved
      · refine ⟨append_one_mem ?_, rfl⟩
        obtain ⟨head, isHead, inner, values, rfl⟩ := Language.mem_mul.1 mem
        exact Language.append_mem_mul isHead (ParamsRule.some values)
      · exact append_one_mem mem
  | nextParameter name params => cases token <;> cases moved; exact keeps_parameter mem
  | body function =>
      cases token <;> cases moved
      obtain ⟨head, noBlocks⟩ := mem
      refine append_nil_mem ?_ (append_one_mem head)
      rw [noBlocks]
      exact led_nil BlockRule
  | firstLabel function =>
      cases token <;> cases moved
      · exact append_one_mem mem
      · exact append_newline_mem (endable_led endable_blockRule) mem
  | labelColon function label =>
      cases token <;> cases moved
      exact Language.append_mem_mul (append_one_mem mem) (Led.led .one .none)
  | lineBreak block => cases token <;> cases moved; exact mem
  | line block =>
      -- A word that begins a terminator, a value that begins an instruction, or a line end.
      cases token <;> cases moved
      · exact append_one_mem mem
      · exact append_one_mem mem
      · exact append_one_mem mem
      · exact append_one_mem mem
      · exact append_newline_mem (endable_led endable_ended) mem
  | inInst block place =>
      obtain ⟨reached, step, rfl⟩ := Option.map_eq_some_iff.1 moved
      cases reached <;> exact keeps_inst step mem
  | inTerm block place =>
      obtain ⟨reached, step, rfl⟩ := Option.map_eq_some_iff.1 moved
      cases reached <;> exact keeps_term step mem
  | blockBreak function => cases token <;> cases moved; exact mem
  | nextLabel function =>
      cases token <;> cases moved
      · exact append_one_mem mem.1
      · exact ⟨append_newline_mem (endable_led endable_blockRule) mem.1, mem.2⟩

/-- A brace after some block completes the function. -/
theorem keeps_close {function : Function}
    (mem : tokens ∈ Place.language functions (.nextLabel function)) :
    ModuleRule (tokens ++ [.rightBrace]) (functions ++ [function]) := by
  obtain ⟨blocks, someBlock⟩ := mem
  -- The tokens are taken apart from their end to where the function begins.
  obtain ⟨_, isOpened, body, derived, rfl⟩ := Language.mem_mul.1 blocks
  obtain ⟨_, isSigned, _, rfl, rfl⟩ := Language.mem_mul.1 isOpened
  obtain ⟨_, isInner, _, rfl, rfl⟩ := Language.mem_mul.1 isSigned
  obtain ⟨_, isHead, inner, params, rfl⟩ := Language.mem_mul.1 isInner
  obtain ⟨_, isNamed, _, rfl, rfl⟩ := Language.mem_mul.1 isHead
  obtain ⟨_, isStarted, _, rfl, rfl⟩ := Language.mem_mul.1 isNamed
  obtain ⟨before, isBefore, _, rfl, rfl⟩ := Language.mem_mul.1 isStarted
  have spelled := FunctionRule.function function.name params derived someBlock
  have added := Led.more isBefore (.ended spelled .nil)
  simpa [ModuleRule] using added

/-- What may be read up to a state. -/
def State.language (state : State) : Language Token :=
  state.place.language state.functions

theorem State.keeps_step {state next : State} (moved : state.step token = some next)
    (mem : tokens ∈ state.language) :
    tokens ++ [token] ∈ next.language := by
  obtain ⟨functions, place⟩ := state
  unfold State.step at moved
  split at moved
  · cases moved
    rename_i isPlace
    subst isPlace
    exact keeps_close mem
  · obtain ⟨further, step, rfl⟩ := Option.map_eq_some_iff.1 moved
    exact Place.keeps_step step mem

theorem State.Leads.keeps {state final : State} {read : List Token}
    (leads : state.Leads tokens final) (mem : read ∈ state.language) :
    read ++ tokens ∈ final.language := by
  induction tokens generalizing state read with
  | nil =>
      cases leads
      rwa [List.append_nil]
  | cons token rest inductionHypothesis =>
      obtain ⟨next, moved, leads⟩ := State.leads_cons.1 leads
      rw [List.append_cons]
      exact inductionHypothesis leads (State.keeps_step moved mem)

end Language

/-! ## Whole programs -/

/-- The reader comes to the end of a program with some functions iff the rules derive the tokens
for these. -/
theorem leads_iff_moduleRule {tokens : List Token} {functions : List Function} :
    State.start.Leads tokens ⟨functions, .outside⟩ ↔ ModuleRule tokens functions :=
  ⟨fun leads => leads.keeps (led_nil (Ended 0 FunctionRule)), ModuleRule.leads⟩

theorem ModuleRule.unique {tokens : List Token} {left right : List Function}
    (isLeft : ModuleRule tokens left) (isRight : ModuleRule tokens right) :
    left = right :=
  congrArg State.functions (isLeft.leads.unique isRight.leads)

/-- What a whole input reads as. -/
theorem State.read_eq_ok {size : Nat} {state : State} {lexemes : List (Token × Span)}
    {functions : List Function} :
    state.read size lexemes = .ok functions ↔
      state.Leads (lexemes.map Prod.fst) ⟨functions, .outside⟩ := by
  induction lexemes generalizing state with
  | nil =>
      obtain ⟨before, place⟩ := state
      cases place <;> simp [State.read, State.finish?, Leads]
  | cons lexeme rest inductionHypothesis =>
      obtain ⟨token, span⟩ := lexeme
      rw [List.map_cons, leads_cons]
      unfold State.read
      split
      · rename_i next moved
        simp [moved, inductionHypothesis]
      · rename_i refused
        simp [refused]

end Grammar

end PassScheduler
