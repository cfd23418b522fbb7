import PassScheduler.Program.Printer

/-!
Contract: the tokens of the text form of programs.

Owns: tokens with what they carry, their kinds, the words that are not free to name things, and
the text that stands for a token or a kind in messages.

Does not own: how a text is cut into tokens, or which tokens may follow which.
-/

namespace PassScheduler

inductive Token where
  | fn
  | const
  | copy
  | ret
  | jmp
  | br
  | mnemonic (op : BinOp)
  | leftParen
  | rightParen
  | leftBrace
  | rightBrace
  | comma
  | equals
  | colon
  | value (id : ValueId)
  | int (n : Int64)
  | ident (name : String)
  | newline
deriving DecidableEq, Repr

/-- What a token is, apart from what it carries. -/
inductive TokenKind where
  | fn
  | const
  | copy
  | ret
  | jmp
  | br
  | mnemonic
  | leftParen
  | rightParen
  | leftBrace
  | rightBrace
  | comma
  | equals
  | colon
  | value
  | int
  | ident
  | newline
deriving DecidableEq, Repr

/-- A kind of token as messages show it. -/
def TokenKind.text : TokenKind → String
  | .fn => "fn"
  | .const => "const"
  | .copy => "copy"
  | .ret => "ret"
  | .jmp => "jmp"
  | .br => "br"
  | .mnemonic => "<mnemonic>"
  | .leftParen => "("
  | .rightParen => ")"
  | .leftBrace => "\x7b"
  | .rightBrace => "\x7d"
  | .comma => ","
  | .equals => "="
  | .colon => ":"
  | .value => "<value>"
  | .int => "<int>"
  | .ident => "<ident>"
  | .newline => "<newline>"

namespace Token

def kind : Token → TokenKind
  | .fn => .fn
  | .const => .const
  | .copy => .copy
  | .ret => .ret
  | .jmp => .jmp
  | .br => .br
  | .mnemonic _ => .mnemonic
  | .leftParen => .leftParen
  | .rightParen => .rightParen
  | .leftBrace => .leftBrace
  | .rightBrace => .rightBrace
  | .comma => .comma
  | .equals => .equals
  | .colon => .colon
  | .value _ => .value
  | .int _ => .int
  | .ident _ => .ident
  | .newline => .newline

/-- The token that a word stands for: a reserved word, or else a name. -/
def ofWord (word : String) : Token :=
  match word with
  | "fn" => .fn
  | "const" => .const
  | "copy" => .copy
  | "ret" => .ret
  | "jmp" => .jmp
  | "br" => .br
  | "add" => .mnemonic .add
  | "sub" => .mnemonic .sub
  | "mul" => .mnemonic .mul
  | "div" => .mnemonic .div
  | "eq" => .mnemonic .eq
  | "lt" => .mnemonic .lt
  | name => .ident name

/-- A token as messages show it: numbers by their value, names and line ends by what they are. -/
def text : Token → String
  | .fn => "fn"
  | .const => "const"
  | .copy => "copy"
  | .ret => "ret"
  | .jmp => "jmp"
  | .br => "br"
  | .mnemonic op => op.mnemonic
  | .leftParen => "("
  | .rightParen => ")"
  | .leftBrace => "\x7b"
  | .rightBrace => "\x7d"
  | .comma => ","
  | .equals => "="
  | .colon => ":"
  | .value id => id.text
  | .int n => n.toInt.repr
  | .ident _ => "<ident>"
  | .newline => "<newline>"

/-! What a token carries, if it is of that kind. -/

def value? : Token → Option ValueId
  | .value id => some id
  | _ => none

def int? : Token → Option Int64
  | .int n => some n
  | _ => none

def mnemonic? : Token → Option BinOp
  | .mnemonic op => some op
  | _ => none

def ident? : Token → Option String
  | .ident name => some name
  | _ => none

end Token

end PassScheduler
