import PassScheduler.Json.Number
import PassScheduler.Text.Position

/-!
Contract: the tokens of a text in JavaScript object notation.

A text is cut into tokens from front to back. Where that is not possible the row of tokens ends
with a flawed one, which says whether the text is malformed or only stops too early; whoever
reads the tokens in order meets the flaw exactly when the text up to it has been used.

Owns: tokens and flaws, the escapes and surrogate pairs of strings, the shape of numbers.

Does not own: which tokens may follow which.
-/

namespace PassScheduler.Json

/-- What is wrong with a text: it could never be read, or it stops too early. -/
inductive Flaw where
  | malformed
  | truncated
deriving DecidableEq, Repr

inductive Token where
  | openBrace
  | closeBrace
  | openBracket
  | closeBracket
  | comma
  | colon
  | null
  | bool (b : Bool)
  | number (n : Number)
  | string (s : String)
  | flawedString (flaw : Flaw)
  | flawed (flaw : Flaw)

def isBlank (c : Char) : Bool :=
  c = ' ' || c = '\t' || c = '\n' || c = '\r'

def hexValue? (c : Char) : Option Nat :=
  if c.isDigit then some (c.toNat - '0'.toNat)
  else if 'a' ≤ c ∧ c ≤ 'f' then some (c.toNat - 'a'.toNat + 10)
  else if 'A' ≤ c ∧ c ≤ 'F' then some (c.toNat - 'A'.toNat + 10)
  else none

/-- The number that the four hexadecimal digits at the front spell. Four bytes have to be
there. -/
def readHex (chars : List Char) : Except Flaw Nat :=
  match chars with
  | a :: b :: c :: d :: _ =>
      match hexValue? a, hexValue? b, hexValue? c, hexValue? d with
      | some a, some b, some c, some d => .ok (((a * 16 + b) * 16 + c) * 16 + d)
      | _, _, _, _ => .error .malformed
  | _ => .error (if byteLength chars < 4 then .truncated else .malformed)

/-- What is wrong between the two halves of a surrogate pair, where another escape by number has
to begin. -/
def pairFlaw? : List Char → Option Flaw
  | [] => some .truncated
  | ['\\'] => some .truncated
  | '\\' :: 'u' :: _ => none
  | _ => some .malformed

/-- The character that an escape by number spells, with the number of characters it takes. A
character beyond the first plane is spelt by a pair of surrogates, and no surrogate stands
alone. -/
def readUnicode (chars : List Char) : Except Flaw (Char × Nat) := do
  let first ← readHex chars
  if 0xdc00 ≤ first ∧ first ≤ 0xdfff then
    throw .malformed
  else if 0xd800 ≤ first ∧ first ≤ 0xdbff then
    match pairFlaw? (chars.drop 4) with
    | some flaw => throw flaw
    | none =>
        let second ← readHex (chars.drop 6)
        if 0xdc00 ≤ second ∧ second ≤ 0xdfff then
          pure (Char.ofNat (0x10000 + (first - 0xd800) * 0x400 + (second - 0xdc00)), 10)
        else
          throw .malformed
  else
    pure (Char.ofNat first, 4)

/-- The character that an escape spells after its backslash, with the number of characters it
takes there. -/
def readEscape : List Char → Except Flaw (Char × Nat)
  | [] => .error .truncated
  | '"' :: _ => .ok ('"', 1)
  | '\\' :: _ => .ok ('\\', 1)
  | '/' :: _ => .ok ('/', 1)
  | 'b' :: _ => .ok ('\x08', 1)
  | 'f' :: _ => .ok ('\x0c', 1)
  | 'n' :: _ => .ok ('\n', 1)
  | 'r' :: _ => .ok ('\r', 1)
  | 't' :: _ => .ok ('\t', 1)
  | 'u' :: rest => (readUnicode rest).map fun (c, taken) => (c, taken + 1)
  | _ => .error .malformed

/-- The characters that a string spells up to its closing quote, and the text behind the quote. -/
def readString : List Char → Except Flaw (List Char × List Char)
  | [] => .error .truncated
  | '"' :: rest => .ok ([], rest)
  | '\\' :: rest =>
      match readEscape rest with
      | .error flaw => .error flaw
      | .ok (c, taken) =>
          (readString (rest.drop taken)).map fun (spelt, rest) => (c :: spelt, rest)
  | c :: rest =>
      if c.toNat < 0x20 then .error .malformed
      else (readString rest).map fun (spelt, rest) => (c :: spelt, rest)
termination_by chars => chars.length
decreasing_by
  · simp only [List.length_drop, List.length_cons]
    omega
  · simp

/-- The text behind a word, if it starts with that word. -/
def afterWord : (word : List Char) → List Char → Except Flaw (List Char)
  | [], rest => .ok rest
  | _ :: _, [] => .error .truncated
  | expected :: word, c :: rest =>
      if c = expected then afterWord word rest else .error .malformed

/-- The digits at the front of a text, of which there has to be one, and the text behind them. -/
def readDigits (chars : List Char) : Except Flaw (List Char × List Char) :=
  match chars with
  | [] => .error .truncated
  | c :: _ =>
      if c.isDigit then
        .ok (chars.takeWhile Char.isDigit, chars.dropWhile Char.isDigit)
      else
        .error .malformed

/-- The digits before the point. Only a single zero starts with zero. -/
def readWhole (chars : List Char) : Except Flaw (List Char × List Char) := do
  let (digits, rest) ← readDigits chars
  match digits with
  | '0' :: _ :: _ => throw .malformed
  | _ => pure (digits, rest)

/-- The digits after a point, if there is one. -/
def readFraction : List Char → Except Flaw (Option (List Char) × List Char)
  | '.' :: rest => (readDigits rest).map fun (digits, rest) => (some digits, rest)
  | chars => .ok (none, chars)

/-- The exponent, if there is one. -/
def readExponent (chars : List Char) : Except Flaw (Option Int × List Char) :=
  match chars with
  | [] => .ok (none, [])
  | mark :: rest =>
      if mark = 'e' ∨ mark = 'E' then
        let (negative, rest) := match rest with
          | '+' :: rest => (false, rest)
          | '-' :: rest => (true, rest)
          | rest => (false, rest)
        (readDigits rest).map fun (digits, rest) =>
          let size : Int := Nat.ofDigitChars 10 digits 0
          (some (if negative then -size else size), rest)
      else
        .ok (none, chars)

/-- A number and the text behind it, after its sign. -/
def readNumber (signed : Bool) (chars : List Char) : Except Flaw (Number × List Char) := do
  let (digits, rest) ← readWhole chars
  let (fraction, rest) ← readFraction rest
  let (exponent, rest) ← readExponent rest
  match Number.ofParts? signed digits fraction exponent with
  | some number => pure (number, rest)
  | none => throw .malformed

/-- A token that is not flawed, with the text behind it, or a flawed one, behind which nothing
is read. -/
def tokenOr (flawed : Flaw → Token) {α : Type} (token : α → Token) :
    Except Flaw (α × List Char) → Token × List Char
  | .ok (value, rest) => (token value, rest)
  | .error flaw => (flawed flaw, [])

/-- The token at the front of a text that starts with the given character, which is not blank. -/
def nextToken (c : Char) (rest : List Char) : Token × List Char :=
  match c with
  | '{' => (.openBrace, rest)
  | '}' => (.closeBrace, rest)
  | '[' => (.openBracket, rest)
  | ']' => (.closeBracket, rest)
  | ',' => (.comma, rest)
  | ':' => (.colon, rest)
  | '"' => tokenOr .flawedString (fun spelt => .string (String.ofList spelt)) (readString rest)
  | 'n' => tokenOr .flawed (fun _ => .null) ((afterWord "ull".toList rest).map ((), ·))
  | 't' => tokenOr .flawed (fun _ => .bool true) ((afterWord "rue".toList rest).map ((), ·))
  | 'f' => tokenOr .flawed (fun _ => .bool false) ((afterWord "alse".toList rest).map ((), ·))
  | '-' => tokenOr .flawed .number (readNumber true rest)
  | c =>
      if c.isDigit then tokenOr .flawed .number (readNumber false (c :: rest))
      else (.flawed .malformed, [])

/-- The tokens of a text, of which each takes at least one of at most `size` characters. -/
def tokensWithin : (size : Nat) → List Char → List Token
  | 0, _ => []
  | _, [] => []
  | size + 1, c :: rest =>
      if isBlank c then
        tokensWithin size rest
      else
        let (token, rest) := nextToken c rest
        token :: tokensWithin size rest

def tokens (text : String) : List Token :=
  tokensWithin text.toList.length text.toList

end PassScheduler.Json
