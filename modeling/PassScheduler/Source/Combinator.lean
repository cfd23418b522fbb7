import PassScheduler.Source.Token
import PassScheduler.Text.Position

/-!
Contract: parsers of tokens, and the ways in which larger ones are made of smaller ones.

A parser reads some tokens or fails. That one fails need not be an error: a choice goes on with its
next alternative from where the last one began, and a repetition ends before the item that failed.
But every failure leaves a trace. The one that got furthest is remembered, together with all that
would have been accepted there, and that is what is told of an input that cannot be read.

Owns:
- what is expected of an input, and what is told of one that cannot be read;
- the cursor, which is what is left to read and the furthest failure;
- parsers of one token and of the end of the input;
- sequences, choices, repetitions, and items with something between or around them.

Does not own: what is parsed, or the wording of messages.
-/

namespace PassScheduler

namespace Grammar

/-- What a parser waits for. A token that is looked for by what it carries has no name. -/
inductive Expectation where
  | kind (kind : TokenKind)
  | somethingElse
  | endOfInput
deriving DecidableEq, Repr

/-- An expectation added to others, unless it is one of them. -/
def expecting (expected : List Expectation) (one : Expectation) : List Expectation :=
  if one ∈ expected then expected else expected ++ [one]

/-- The token, or the end of the input, at which parsers failed and none got further. -/
structure Mismatch where
  span : Span
  found : Option Token
  expected : List Expectation
deriving DecidableEq, Repr

end Grammar

open Grammar (Expectation Mismatch)

/-- Where parsers failed: what was left to read there, and what would have been accepted. -/
structure Failure where
  rest : List (Token × Span)
  expected : List Expectation

/-- What is told of a failure in an input of `size` bytes. -/
def Failure.mismatch (size : Nat) (failure : Failure) : Mismatch :=
  match failure.rest with
  | (token, span) :: _ => ⟨span, some token, failure.expected⟩
  | [] => ⟨⟨size, size⟩, none, failure.expected⟩

/-- What is left to read, and the furthest of the failures so far. -/
structure Cursor where
  rest : List (Token × Span)
  furthest : Failure

namespace Cursor

/-- The beginning of an input. -/
def ofTokens (tokens : List (Token × Span)) : Cursor :=
  ⟨tokens, ⟨tokens, []⟩⟩

/-- Notes that something was expected here. This counts if no failure was further on, and it joins
what else was expected at the same place. -/
def fail (cursor : Cursor) (expectation : Expectation) : Cursor :=
  let furthest := cursor.furthest
  if cursor.rest.length < furthest.rest.length then
    { cursor with furthest := ⟨cursor.rest, [expectation]⟩ }
  else if furthest.rest.length < cursor.rest.length then
    cursor
  else
    { cursor with
      furthest := { furthest with expected := Grammar.expecting furthest.expected expectation } }

/-- Back to where an attempt began. Its failures are not forgotten. -/
def rewind (cursor start : Cursor) : Cursor :=
  { cursor with rest := start.rest }

end Cursor

def Parser (α : Type) : Type :=
  Cursor → Option α × Cursor

/-- Parsers one after the other; the first to fail fails them all. -/
instance : Monad Parser where
  pure value := fun cursor => (some value, cursor)
  bind parser next := fun cursor =>
    match parser cursor with
    | (some value, after) => next value after
    | (none, after) => (none, after)

namespace Parser

variable {α β γ : Type}

/-! ## One token -/

/-- One token that is accepted. -/
def take (accept : Token → Option α) (expectation : Expectation) : Parser α := fun cursor =>
  match cursor.rest with
  | (token, _) :: rest =>
      match accept token with
      | some value => (some value, { cursor with rest })
      | none => (none, cursor.fail expectation)
  | [] => (none, cursor.fail expectation)

/-- Just that token. -/
def just (token : Token) : Parser Token :=
  take (fun found => if found = token then some found else none) (.kind token.kind)

/-- A token that is selected by what it carries. -/
def select (accept : Token → Option α) : Parser α :=
  take accept .somethingElse

def endOfInput : Parser Unit := fun cursor =>
  if cursor.rest.isEmpty then (some (), cursor) else (none, cursor.fail .endOfInput)

/-! ## Sequences -/

def map (parser : Parser α) (change : α → β) : Parser β := do
  return change (← parser)

def ignored (parser : Parser α) : Parser Unit :=
  parser.map fun _ => ()

def andThen (parser : Parser α) (next : Parser β) : Parser (α × β) := do
  return (← parser, ← next)

def ignoreThen (parser : Parser α) (next : Parser β) : Parser β := do
  let _ ← parser
  next

def thenIgnore (parser : Parser α) (next : Parser β) : Parser α := do
  let value ← parser
  let _ ← next
  return value

def delimitedBy (parser : Parser α) (left : Parser β) (right : Parser γ) : Parser α :=
  (left.ignoreThen parser).thenIgnore right

/-! ## Choices -/

/-- The first parser, or the second from the same place. -/
def or (first second : Parser α) : Parser α := fun cursor =>
  match first cursor with
  | (some value, after) => (some value, after)
  | (none, after) => second (after.rewind cursor)

/-- The first of some alternatives that does not fail. -/
def choice (first : Parser α) : List (Parser α) → Parser α
  | [] => first
  | second :: rest => first.or (choice second rest)

/-! ## Repetitions -/

/-- Items up to the first that fails, given those that were read before. With fewer than `least` it
is a failure that there is none. An item that read nothing would be read for ever. -/
def repeatedFrom (item : Parser α) (least : Nat) (items : List α) : Parser (List α) := fun cursor =>
  match item cursor with
  | (some value, after) =>
      if after.rest.length < cursor.rest.length then
        repeatedFrom item least (items ++ [value]) after
      else
        (none, after)
  | (none, after) => (if least ≤ items.length then some items else none, after.rewind cursor)
termination_by cursor => cursor.rest.length

/-- At least so many items. -/
def repeated (item : Parser α) (least : Nat) : Parser (List α) :=
  repeatedFrom item least []

/-- Any number of items with separators between them. A separator without an item after it is given
back. -/
def separatedBy (item : Parser α) (separator : Parser β) : Parser (List α) := fun cursor =>
  match item cursor with
  | (some first, after) => repeatedFrom (separator.ignoreThen item) 0 [first] after
  | (none, after) => (some [], after.rewind cursor)

/-! ## Whole inputs -/

/-- What a parser makes of all tokens of an input of `size` bytes, or the furthest failure. -/
def parse (parser : Parser α) (size : Nat) (tokens : List (Token × Span)) : Except Mismatch α :=
  match parser.thenIgnore endOfInput (.ofTokens tokens) with
  | (some value, _) => .ok value
  | (none, after) => .error (after.furthest.mismatch size)

end Parser

end PassScheduler
