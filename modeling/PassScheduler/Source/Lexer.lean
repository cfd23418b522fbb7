import PassScheduler.Source.Token
import PassScheduler.Text.Position
import PassScheduler.Text.Quoted

/-!
Contract: a source text as a row of pieces without gap or overlap.

Owns:
- the classes of characters, all of them ASCII;
- `nextPiece`, which says how far the piece at the front reaches and what it reads as;
- the pieces of a text with their byte spans, the tokens among them, and those that are no token.

Each kind of piece is told by its first character (a sign by its second), so taking the longest
run of the right class gives the longest piece. A literal that is too large for its type is one
unexpected piece; any other character that starts no token is one on its own.

Does not own: which tokens may follow which.
-/

namespace PassScheduler

/-- What a piece of source text reads as. -/
inductive Reading where
  | skipped
  | token (token : Token)
  | unexpected
deriving DecidableEq, Repr

structure Piece where
  reading : Reading
  text : List Char
deriving DecidableEq, Repr

namespace Lexer

def isBlank (c : Char) : Bool :=
  c = ' ' || c = '\t' || c = '\r'

def isWordStart (c : Char) : Bool :=
  c.isAlpha || c = '_'

def isWordPart (c : Char) : Bool :=
  c.isAlphanum || c = '_' || c = '.'

/-- The value that a run of digits names, if its number fits. -/
def readValue (digits : List Char) : Reading :=
  let n := Nat.ofDigitChars 10 digits 0
  if digits ≠ [] ∧ n < UInt32.size then .token (.value ⟨UInt32.ofNat n⟩) else .unexpected

def readNatural (digits : List Char) : Reading :=
  let n := Nat.ofDigitChars 10 digits 0
  if n < UInt64.size / 2 then .token (.int (Int64.ofNat n)) else .unexpected

/-- The number that a run of digits after a minus sign stands for, if it fits. -/
def readNegative (digits : List Char) : Reading :=
  let n := Nat.ofDigitChars 10 digits 0
  if digits ≠ [] ∧ n ≤ UInt64.size / 2 then .token (.int (Int64.ofInt (-n))) else .unexpected

def readSymbol : Char → Reading
  | '(' => .token .leftParen
  | ')' => .token .rightParen
  | '{' => .token .leftBrace
  | '}' => .token .rightBrace
  | ',' => .token .comma
  | '=' => .token .equals
  | ':' => .token .colon
  | _ => .unexpected

/-- The piece at the front of a text, given the text's first character and the rest of it. -/
def nextPiece (c : Char) (rest : List Char) : Piece :=
  if isBlank c then
    ⟨.skipped, c :: rest.takeWhile isBlank⟩
  else if c = ';' then
    ⟨.skipped, c :: rest.takeWhile (· ≠ '\n')⟩
  else if c = '\n' then
    ⟨.token .newline, c :: rest.takeWhile (· = '\n')⟩
  else if c = '%' then
    let digits := rest.takeWhile Char.isDigit
    ⟨readValue digits, c :: digits⟩
  else if c = '-' then
    let digits := rest.takeWhile Char.isDigit
    ⟨readNegative digits, c :: digits⟩
  else if c.isDigit then
    let digits := c :: rest.takeWhile Char.isDigit
    ⟨readNatural digits, digits⟩
  else if isWordStart c then
    let word := c :: rest.takeWhile isWordPart
    ⟨.token (.ofWord (String.ofList word)), word⟩
  else
    ⟨readSymbol c, [c]⟩

/-- All pieces of a text, from front to back. A piece has at least one character, so dropping
what follows its first one moves on by the whole piece. -/
def pieces : List Char → List Piece
  | [] => []
  | c :: rest =>
      let piece := nextPiece c rest
      piece :: pieces (rest.drop (piece.text.length - 1))
termination_by chars => chars.length
decreasing_by
  simp only [List.length_drop, List.length_cons]
  omega

/-- Pieces with their spans, the first of them starting at the given byte. -/
def located (start : Nat) : List Piece → List (Piece × Span)
  | [] => []
  | piece :: rest =>
      let stop := start + byteLength piece.text
      (piece, ⟨start, stop⟩) :: located stop rest

/-- The pieces of a source text with their spans. -/
def scan (source : String) : List (Piece × Span) :=
  located 0 (pieces source.toList)

/-- The tokens of a source text with their spans, in order. -/
def tokens (source : String) : List (Token × Span) :=
  (scan source).filterMap fun entry =>
    match entry.1.reading with
    | .token token => some (token, entry.2)
    | _ => none

/-- The pieces of a source text that are neither skipped nor a token, in order. -/
def unexpected (source : String) : List (Piece × Span) :=
  (scan source).filter fun entry => entry.1.reading = .unexpected

/-- What is said of a piece that is no token. -/
def unexpectedMessage (piece : Piece) : String :=
  "unexpected input: " ++ Text.quoted (String.ofList piece.text)

end Lexer

end PassScheduler
