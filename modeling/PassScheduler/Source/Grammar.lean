import PassScheduler.Source.Combinator

/-!
Contract: the parser of programs.

    module   := nl* (function nl*)*
    function := 'fn' IDENT '(' (VALUE (',' VALUE)*)? ')' '{' nl* block+ '}'
    block    := IDENT ':' nl+ (inst nl+)* term nl+
    inst     := VALUE '=' ('const' INT | 'copy' operand | BINOP operand ',' operand)
    term     := 'ret' operand | 'jmp' IDENT | 'br' operand ',' IDENT ',' IDENT
    operand  := VALUE | INT

Owns: a parser for each of these rules and for what they are made of.

Does not own: how parsers are put together, or what an input without a program is told.
-/

namespace PassScheduler.Parser

def nl : Parser Unit :=
  ((just .newline).repeated 0).ignored

def nl1 : Parser Unit :=
  ((just .newline).repeated 1).ignored

/-! ## Leaves -/

/-- An identifier is the piece of text that it was read from. -/
def ident : Parser String :=
  take Token.ident? (.kind .ident)

def value : Parser ValueId :=
  select Token.value?

def int : Parser Int64 :=
  select Token.int?

def operand : Parser Operand :=
  (value.map .value).or (int.map .imm)

def binop : Parser BinOp :=
  select Token.mnemonic?

/-! ## Lines -/

def op : Parser Op :=
  choice (((just .const).ignoreThen int).map .const) [
    ((just .copy).ignoreThen operand).map .copy,
    (((binop.andThen operand).thenIgnore (just .comma)).andThen operand).map
      fun ((op, lhs), rhs) => .binary op lhs rhs]

def inst : Parser Inst :=
  ((value.thenIgnore (just .equals)).andThen op).map fun (dest, op) => ⟨dest, op⟩

def term : Parser Terminator :=
  choice (((just .ret).ignoreThen operand).map .ret) [
    ((just .jmp).ignoreThen ident).map .jmp,
    ((((((just .br).ignoreThen operand).thenIgnore (just .comma)).andThen ident).thenIgnore
      (just .comma)).andThen ident).map
        fun ((condition, thenLabel), elseLabel) => .br condition thenLabel elseLabel]

/-! ## Blocks and functions -/

def block : Parser Block :=
  (((((ident.thenIgnore (just .colon)).thenIgnore nl1).andThen
    ((inst.thenIgnore nl1).repeated 0)).andThen term).thenIgnore nl1).map
      fun ((label, insts), term) => ⟨label, insts, term⟩

def params : Parser (List ValueId) :=
  (value.separatedBy (just .comma)).delimitedBy (just .leftParen) (just .rightParen)

def body : Parser (List Block) :=
  (nl.ignoreThen (block.repeated 1)).delimitedBy (just .leftBrace) (just .rightBrace)

def function : Parser Function :=
  ((((just .fn).ignoreThen ident).andThen params).andThen body).map
    fun ((name, params), blocks) => ⟨name, params, blocks⟩

def program : Parser (List Function) :=
  nl.ignoreThen ((function.thenIgnore nl).repeated 0)

end PassScheduler.Parser
