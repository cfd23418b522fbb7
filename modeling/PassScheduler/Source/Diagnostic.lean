import PassScheduler.Text.Position

/-!
Contract: a problem that a reader of a source text is told about.

Owns: severity, code, place, message and hint of a problem, and its text with and without a
position.

Does not own: which problems there are.
-/

namespace PassScheduler

inductive Severity where
  | error
  | warning
deriving DecidableEq, Repr

def Severity.text : Severity → String
  | .error => "error"
  | .warning => "warning"

structure Diagnostic where
  severity : Severity
  code : Option String := none
  span : Span
  message : String
  hint : Option String := none
deriving DecidableEq, Repr

namespace Diagnostic

/-- The problem without its place: the hint, if there is one, stands on a line of its own. -/
def text (diagnostic : Diagnostic) : String :=
  let code := match diagnostic.code with
    | none => ""
    | some code => "[" ++ code ++ "]"
  let hint := match diagnostic.hint with
    | none => ""
    | some hint => "\n  hint: " ++ hint
  diagnostic.severity.text ++ code ++ ": " ++ diagnostic.message ++ hint

/-- The problem after the line and column at which it starts, if its start is a position of the
source. -/
def render? (diagnostic : Diagnostic) (source : String) : Option String :=
  (Position.ofOffset? source diagnostic.span.start).map fun position =>
    position.line.repr ++ ":" ++ position.column.repr ++ ": " ++ diagnostic.text

end Diagnostic

/-- Whether any problem is more than a warning. -/
def hasErrors (diagnostics : List Diagnostic) : Bool :=
  diagnostics.any fun diagnostic => diagnostic.severity = .error

end PassScheduler
