import PassScheduler.Source.Diagnostic
import PassScheduler.Source.Grammar
import PassScheduler.Source.Lexer

/-!
Contract: from a source text to functions or to what is wrong with it.

Owns: the codes and the wording of problems, and `parse`. Every piece that is no token is a
problem, and so is the first token that the grammar refuses; the grammar reads what tokens there
are even beside pieces that are none, but functions come only of a text without any problem.

Does not own: whether the functions make sense.
-/

namespace PassScheduler

/-- The code of a piece of text that is no token. -/
def unexpectedInputCode : String := "E0001"

/-- The code of a token that the grammar refuses. -/
def mismatchCode : String := "E0002"

namespace Grammar

def Expectation.text : Expectation → String
  | .kind expected => "'" ++ expected.text ++ "'"
  | .somethingElse => "something else"
  | .endOfInput => "end of input"

/-- Alternatives with commas between them and an "or" before the last of several. -/
def alternatives : List String → String
  | [] => ""
  | [only] => only
  | [last, final] => last ++ ", or " ++ final
  | first :: rest => first ++ ", " ++ alternatives rest

def Mismatch.message (mismatch : Mismatch) : String :=
  let found := match mismatch.found with
    | some token => "'" ++ token.text ++ "'"
    | none => "end of input"
  "found " ++ found ++ " expected " ++ alternatives (mismatch.expected.map Expectation.text)

def Mismatch.diagnostic (mismatch : Mismatch) : Diagnostic where
  severity := .error
  code := some mismatchCode
  span := mismatch.span
  message := mismatch.message

end Grammar

namespace Source

/-- A problem for every piece of the text that is no token, in order. -/
def lexicalProblems (source : String) : List Diagnostic :=
  (Lexer.unexpected source).map fun entry =>
    { severity := .error
      code := some unexpectedInputCode
      span := entry.2
      message := Lexer.unexpectedMessage entry.1 }

/-- What the tokens of the text spell. -/
def readTokens (source : String) : Except Grammar.Mismatch (List Function) :=
  Parser.program.parse source.utf8ByteSize (Lexer.tokens source)

/-- The functions of a source text, or its problems. -/
def parse (source : String) : Except (List Diagnostic) (List Function) :=
  match lexicalProblems source, readTokens source with
  | [], .ok functions => .ok functions
  | problems, .ok _ => .error problems
  | problems, .error mismatch => .error (problems ++ [mismatch.diagnostic])

end Source

end PassScheduler
