import PassScheduler.Source.Grammar

/-!
Contract: the grammar of programs, read one token at a time.

A program is functions with line ends between them; a function is `fn`, a name, parameters in
parentheses and one or more blocks in braces; a block is a label with a colon, instructions and
one terminator, each on a line of its own. Nothing nests, so a place in the grammar and the parts
read so far are all that a reader has to remember. Such a reader never goes back.

Owns:
- the places in the grammar, each with the parts it has read;
- `step`, the move on a token, which is refused exactly when no program goes on like that;
- `expected`, what each place waits for, in the order in which messages list it;
- `read`, the run over all tokens, which stops at the first refused one.

Does not own: that the parser of programs does the same.
-/

namespace PassScheduler

/-- The operand that a token is, if it is one. -/
def Token.operand? : Token → Option Operand
  | .value id => some (.value id)
  | .int n => some (.imm n)
  | _ => none

namespace Grammar

/-- A place inside an instruction, with what has been read of it. -/
inductive InstPlace where
  | equals (dest : ValueId)
  | operation (dest : ValueId)
  | const (dest : ValueId)
  | copy (dest : ValueId)
  | binary (dest : ValueId) (op : BinOp)
  | binaryComma (dest : ValueId) (op : BinOp) (lhs : Operand)
  | binaryRhs (dest : ValueId) (op : BinOp) (lhs : Operand)
deriving DecidableEq, Repr

/-- A place inside a terminator, with what has been read of it. -/
inductive TermPlace where
  | ret
  | jmp
  | br
  | brComma (condition : Operand)
  | brThen (condition : Operand)
  | brThenComma (condition : Operand) (thenLabel : String)
  | brElse (condition : Operand) (thenLabel : String)
deriving DecidableEq, Repr

/-- A block whose terminator is still to come, in the function read so far. -/
structure OpenBlock where
  function : Function
  label : String
  insts : List Inst
deriving DecidableEq, Repr

namespace OpenBlock

def push (block : OpenBlock) (inst : Inst) : OpenBlock :=
  { block with insts := block.insts ++ [inst] }

/-- The function with the block added to it. -/
def close (block : OpenBlock) (term : Terminator) : Function :=
  { block.function with
    blocks := block.function.blocks ++ [⟨block.label, block.insts, term⟩] }

end OpenBlock

/-- A place in the grammar, with what has been read of the function it lies in. -/
inductive Place where
  | outside
  | functionName
  | parameterList (name : String)
  | firstParameter (name : String)
  | afterParameter (name : String) (params : List ValueId)
  | nextParameter (name : String) (params : List ValueId)
  | body (function : Function)
  | firstLabel (function : Function)
  | labelColon (function : Function) (label : String)
  | lineBreak (block : OpenBlock)
  | line (block : OpenBlock)
  | inInst (block : OpenBlock) (place : InstPlace)
  | inTerm (block : OpenBlock) (place : TermPlace)
  | blockBreak (function : Function)
  | nextLabel (function : Function)
deriving DecidableEq, Repr

/-- A place together with the functions that are complete. -/
structure State where
  functions : List Function
  place : Place
deriving DecidableEq, Repr

def State.start : State :=
  ⟨[], .outside⟩

/-- A move inside an instruction leads to another place in it or to its end. -/
def InstPlace.step : InstPlace → Token → Option (InstPlace ⊕ Inst)
  | .equals dest, .equals => some (.inl (.operation dest))
  | .operation dest, .const => some (.inl (.const dest))
  | .operation dest, .copy => some (.inl (.copy dest))
  | .operation dest, .mnemonic op => some (.inl (.binary dest op))
  | .const dest, .int n => some (.inr ⟨dest, .const n⟩)
  | .copy dest, token => token.operand?.map fun source => .inr ⟨dest, .copy source⟩
  | .binary dest op, token => token.operand?.map fun lhs => .inl (.binaryComma dest op lhs)
  | .binaryComma dest op lhs, .comma => some (.inl (.binaryRhs dest op lhs))
  | .binaryRhs dest op lhs, token =>
      token.operand?.map fun rhs => .inr ⟨dest, .binary op lhs rhs⟩
  | _, _ => none

def InstPlace.expected : InstPlace → List Expectation
  | .equals _ => [.kind .equals]
  | .operation _ => [.kind .const, .kind .copy, .somethingElse]
  | .const _ | .copy _ | .binary _ _ | .binaryRhs _ _ _ => [.somethingElse]
  | .binaryComma _ _ _ => [.kind .comma]

/-- A move inside a terminator leads to another place in it or to its end. -/
def TermPlace.step : TermPlace → Token → Option (TermPlace ⊕ Terminator)
  | .ret, token => token.operand?.map fun result => .inr (.ret result)
  | .jmp, .ident target => some (.inr (.jmp target))
  | .br, token => token.operand?.map fun condition => .inl (.brComma condition)
  | .brComma condition, .comma => some (.inl (.brThen condition))
  | .brThen condition, .ident label => some (.inl (.brThenComma condition label))
  | .brThenComma condition thenLabel, .comma => some (.inl (.brElse condition thenLabel))
  | .brElse condition thenLabel, .ident label => some (.inr (.br condition thenLabel label))
  | _, _ => none

def TermPlace.expected : TermPlace → List Expectation
  | .ret | .br => [.somethingElse]
  | .jmp | .brThen _ | .brElse _ _ => [.kind .ident]
  | .brComma _ | .brThenComma _ _ => [.kind .comma]

/-- The move from a place inside a function on a token, other than the one that completes the
function. -/
def Place.step : Place → Token → Option Place
  | .outside, .newline => some .outside
  | .outside, .fn => some .functionName
  | .functionName, .ident name => some (.parameterList name)
  | .parameterList name, .leftParen => some (.firstParameter name)
  | .firstParameter name, .value id => some (.afterParameter name [id])
  | .firstParameter name, .rightParen => some (.body ⟨name, [], []⟩)
  | .afterParameter name params, .comma => some (.nextParameter name params)
  | .afterParameter name params, .rightParen => some (.body ⟨name, params, []⟩)
  | .nextParameter name params, .value id => some (.afterParameter name (params ++ [id]))
  | .body function, .leftBrace => some (.firstLabel function)
  | .firstLabel function, .newline => some (.firstLabel function)
  | .firstLabel function, .ident label => some (.labelColon function label)
  | .labelColon function label, .colon => some (.lineBreak ⟨function, label, []⟩)
  | .lineBreak block, .newline => some (.line block)
  | .line block, .newline => some (.line block)
  | .line block, .value dest => some (.inInst block (.equals dest))
  | .line block, .ret => some (.inTerm block .ret)
  | .line block, .jmp => some (.inTerm block .jmp)
  | .line block, .br => some (.inTerm block .br)
  | .inInst block place, token =>
      (place.step token).map fun
        | .inl next => .inInst block next
        | .inr inst => .lineBreak (block.push inst)
  | .inTerm block place, token =>
      (place.step token).map fun
        | .inl next => .inTerm block next
        | .inr term => .blockBreak (block.close term)
  | .blockBreak function, .newline => some (.nextLabel function)
  | .nextLabel function, .newline => some (.nextLabel function)
  | .nextLabel function, .ident label => some (.labelColon function label)
  | _, _ => none

def Place.expected : Place → List Expectation
  | .outside => [.kind .newline, .kind .fn, .endOfInput]
  | .functionName => [.kind .ident]
  | .parameterList _ => [.kind .leftParen]
  | .firstParameter _ => [.somethingElse, .kind .rightParen]
  | .afterParameter _ _ => [.kind .comma, .kind .rightParen]
  | .nextParameter _ _ => [.somethingElse]
  | .body _ => [.kind .leftBrace]
  | .firstLabel _ => [.kind .newline, .kind .ident]
  | .labelColon _ _ => [.kind .colon]
  | .lineBreak _ => [.kind .newline]
  | .line _ => [.kind .newline, .somethingElse, .kind .ret, .kind .jmp, .kind .br]
  | .inInst _ place => place.expected
  | .inTerm _ place => place.expected
  | .blockBreak _ => [.kind .newline]
  | .nextLabel _ => [.kind .newline, .kind .ident, .kind .rightBrace]

/-- The move from a state on a token; `none` refuses the token. -/
def State.step (state : State) (token : Token) : Option State :=
  match state.place, token with
  | .nextLabel function, .rightBrace => some ⟨state.functions ++ [function], .outside⟩
  | place, token => (place.step token).map fun next => ⟨state.functions, next⟩

/-- The functions, if the input may end here. -/
def State.finish? (state : State) : Option (List Function) :=
  match state.place with
  | .outside => some state.functions
  | _ => none

/-- The functions that the tokens spell from a state on, in an input of `size` bytes. -/
def State.read (size : Nat) : State → List (Token × Span) → Except Mismatch (List Function)
  | state, [] =>
      match state.finish? with
      | some functions => .ok functions
      | none => .error ⟨⟨size, size⟩, none, state.place.expected⟩
  | state, (token, span) :: rest =>
      match state.step token with
      | some next => next.read size rest
      | none => .error ⟨span, some token, state.place.expected⟩

end Grammar

end PassScheduler
