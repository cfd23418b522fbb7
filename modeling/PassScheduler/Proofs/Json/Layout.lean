import Mathlib.Data.List.Chain
import PassScheduler.Json.Tree
import PassScheduler.Proofs.Json.Spelling

/-!
Contract: how the parts of a text may be laid out, and what a reader makes of them.

Lexemes are what tokens are spelt by. A text lays out a row of lexemes if it spells them in order,
with any number of blanks before, between and behind them. Where no two of them stand together that
could be taken for one, a reader builds the same from the text as from the tokens of the lexemes.

Owns:
- lexemes, their spellings and their tokens;
- the layouts of a row of lexemes, and that they do not change what is built.

Does not own: which rows of lexemes are values.
-/

namespace PassScheduler.Json

open Lexer (Avoids)

/-! ## Lexemes -/

/-- The characters that stand for themselves between values. -/
inductive Mark where
  | openBrace
  | closeBrace
  | openBracket
  | closeBracket
  | comma
  | colon
deriving DecidableEq, Repr

namespace Mark

def char : Mark → Char
  | .openBrace => '{'
  | .closeBrace => '}'
  | .openBracket => '['
  | .closeBracket => ']'
  | .comma => ','
  | .colon => ':'

def token : Mark → Token
  | .openBrace => .openBrace
  | .closeBrace => .closeBrace
  | .openBracket => .openBracket
  | .closeBracket => .closeBracket
  | .comma => .comma
  | .colon => .colon

end Mark

inductive Lexeme where
  | mark (mark : Mark)
  | null
  | bool (b : Bool)
  | number (numeral : Numeral)
  | string (s : String)

namespace Lexeme

def isMark : Lexeme → Bool
  | .mark _ => true
  | _ => false

/-- The token that a lexeme is read as. A number that is too large is refused. -/
def token : Lexeme → Token
  | .mark symbol => symbol.token
  | .null => .null
  | .bool b => .bool b
  | .number numeral =>
      match numeral.number? with
      | some n => .number n
      | none => .flawed .malformed
  | .string s => .string s

/-- What may stand for a lexeme. -/
inductive Spells : Lexeme → List Char → Prop where
  | mark (mark : Mark) : Spells (.mark mark) [mark.char]
  | null : Spells .null "null".toList
  | bool (b : Bool) : Spells (.bool b) (boolText b).toList
  | number (numeral : Numeral) : Spells (.number numeral) numeral.chars
  | string {s : String} {spelt : List Char} (spells : SpellsChars s.toList spelt) :
      Spells (.string s) ('"' :: (spelt ++ ['"']))

/-- The token at the front of a text is that of the lexeme, and behind it the text goes on. Behind a
flawed token nothing is read. -/
def Leads (lexeme : Lexeme) (front : Token × List Char) (rest : List Char) : Prop :=
  front = (lexeme.token, rest) ∨ ∃ flaw, lexeme.token = .flawed flaw ∧ front = (.flawed flaw, [])

end Lexeme

theorem nextToken_digit {c : Char} (isDigit : c.isDigit) (rest : List Char) :
    nextToken c rest = tokenOr .flawed .number (readNumber false (c :: rest)) := by
  unfold nextToken
  split <;> first | cases isDigit | simp only [isDigit, if_true]

/-- A numeral begins with a minus or a digit, behind which it is read as a number. -/
theorem Numeral.nextToken_chars (numeral : Numeral) (rest : List Char) :
    ∃ first more, numeral.chars = first :: more ∧ isBlank first = false ∧
      nextToken first (more ++ rest) =
        tokenOr .flawed .number (readNumber numeral.negative (numeral.magnitude ++ rest)) := by
  obtain ⟨first, others, digits⟩ :=
    List.exists_cons_of_ne_nil (Nat.toDigits_ne_nil (n := numeral.whole) (b := 10))
  have isDigit : first.isDigit :=
    Nat.isDigit_of_mem_toDigits (n := numeral.whole) (b := 10) (by decide) (by decide)
      (by simp [digits])
  cases negative : numeral.negative with
  | true => exact ⟨'-', numeral.magnitude, by simp [chars, negative], rfl, by rfl⟩
  | false =>
      have notBlank : isBlank first = false := by
        by_contra blank
        simp only [isBlank, Bool.not_eq_false, Bool.or_eq_true, decide_eq_true_eq] at blank
        rcases blank with ((rfl | rfl) | rfl) | rfl <;> cases isDigit
      refine ⟨first, others ++ fractionChars numeral.fraction ++ exponentChars numeral.exponent,
        by simp [chars, negative, magnitude, digits], notBlank, ?_⟩
      rw [nextToken_digit isDigit]
      simp [magnitude, digits]

/-- A lexeme is read off the front of a text. Behind one that is no mark nothing may follow that a
number could go on with. -/
theorem Lexeme.Spells.nextToken {lexeme : Lexeme} {spelt rest : List Char}
    (spells : lexeme.Spells spelt) (ends : lexeme.isMark = false → Avoids isNumberPart rest) :
    ∃ first more, spelt = first :: more ∧ isBlank first = false ∧
      lexeme.Leads (Json.nextToken first (more ++ rest)) rest := by
  cases spells with
  | mark mark => exact ⟨mark.char, [], rfl, by cases mark <;> rfl, .inl (by cases mark <;> rfl)⟩
  | null => exact ⟨'n', "ull".toList, rfl, rfl, .inl rfl⟩
  | bool b =>
      cases b
      · exact ⟨'f', "alse".toList, rfl, rfl, .inl rfl⟩
      · exact ⟨'t', "rue".toList, rfl, rfl, .inl rfl⟩
  | number numeral =>
      obtain ⟨first, more, isText, notBlank, front⟩ := numeral.nextToken_chars rest
      refine ⟨first, more, isText, notBlank, ?_⟩
      rw [front, numeral.readNumber_magnitude (ends rfl)]
      cases value : numeral.number? with
      | some number => exact .inl (by simp [token, value, tokenOr])
      | none => exact .inr ⟨.malformed, by simp [token, value], rfl⟩
  | @string s spelt spells =>
      refine ⟨'"', spelt ++ ['"'], rfl, rfl, .inl ?_⟩
      have read := spells.readString rest
      simp only [Json.nextToken, List.append_assoc, List.singleton_append, read, tokenOr,
        String.ofList_toList, token]

/-! ## Layouts -/

/-- The lexemes are spelt in order, with blanks before, between and behind them. -/
inductive Lays : List Lexeme → List Char → Prop where
  | done : Lays [] []
  | blank {lexemes : List Lexeme} {c : Char} {text : List Char} (isBlank : isBlank c)
      (rest : Lays lexemes text) :
      Lays lexemes (c :: text)
  | lexeme {lexeme : Lexeme} {lexemes : List Lexeme} {spelt text : List Char}
      (spells : lexeme.Spells spelt) (rest : Lays lexemes text) :
      Lays (lexeme :: lexemes) (spelt ++ text)

/-- Of two lexemes that stand together one is a mark. -/
def Spaced (lexemes : List Lexeme) : Prop :=
  lexemes.IsChain fun first second => first.isMark ∨ second.isMark

theorem Spaced.mark_cons {lexemes : List Lexeme} (spaced : Spaced lexemes) (mark : Mark) :
    Spaced (.mark mark :: lexemes) :=
  List.isChain_cons.2 ⟨fun _ _ => .inl rfl, spaced⟩

theorem Spaced.append_mark {before after : List Lexeme} {mark : Mark} (spaced : Spaced before)
    (spacedToo : Spaced (.mark mark :: after)) :
    Spaced (before ++ .mark mark :: after) := by
  refine List.isChain_append.2 ⟨spaced, spacedToo, fun _ _ second isHead => .inr ?_⟩
  obtain rfl := Option.mem_some_iff.1 isHead
  rfl

namespace Lays

variable {lexemes : List Lexeme} {text : List Char}

theorem append (lays : Lays lexemes text) {others : List Lexeme} {otherText : List Char}
    (laysToo : Lays others otherText) :
    Lays (lexemes ++ others) (text ++ otherText) := by
  induction lays with
  | done => exact laysToo
  | blank isBlank _ inductionHypothesis => exact .blank isBlank inductionHypothesis
  | lexeme spells _ inductionHypothesis =>
      rw [List.append_assoc]
      exact .lexeme spells inductionHypothesis

theorem single {lexeme : Lexeme} (spells : lexeme.Spells text) : Lays [lexeme] text := by
  simpa using Lays.lexeme spells .done

theorem blanks (areBlank : ∀ c ∈ text, isBlank c) : Lays [] text := by
  induction text with
  | nil => exact .done
  | cons c more inductionHypothesis =>
      exact .blank (areBlank c (by simp)) (inductionHypothesis fun c member =>
        areBlank c (by simp [member]))

/-- No number goes on in a text that begins with blanks or a mark. -/
theorem avoids (lays : Lays lexemes text) (marked : ∀ next ∈ lexemes.head?, next.isMark) :
    Avoids isNumberPart text := by
  cases lays with
  | done => simp [Avoids]
  | blank blank _ =>
      rintro c ⟨⟩ isPart
      simp only [isBlank, Bool.or_eq_true, decide_eq_true_eq] at blank
      rcases blank with ((rfl | rfl) | rfl) | rfl <;> cases isPart
  | lexeme spells _ =>
      cases spells with
      | mark mark => cases mark <;> simp [Avoids, Mark.char, isNumberPart]
      | _ => cases marked _ rfl

end Lays

/-! ## Reading a layout -/

/-- A flawed token ends every draft. -/
theorem move_flawed (stage : Stage) (around : List OpenTree) (flaw : Flaw) :
    ∃ draft, move stage around (.flawed flaw) = .stop draft := by
  cases stage with
  | complete tree =>
      rcases around with _ | ⟨_ | _, _⟩ <;> exact ⟨_, rfl⟩
  | _ => exact ⟨_, rfl⟩

theorem build_flawed (stage : Stage) (around : List OpenTree) (flaw : Flaw)
    (rest others : List Token) :
    build stage around (.flawed flaw :: rest) = build stage around (.flawed flaw :: others) := by
  obtain ⟨draft, stops⟩ := move_flawed stage around flaw
  simp only [build, stops]

theorem tokensWithin_nil (size : Nat) : tokensWithin size [] = [] := by
  cases size <;> rfl

/-- From a layout the same is built as from the tokens of its lexemes. -/
theorem Lays.build_tokensWithin {lexemes : List Lexeme} {text : List Char}
    (lays : Lays lexemes text) (spaced : Spaced lexemes) {size : Nat} (fits : text.length ≤ size)
    (stage : Stage) (around : List OpenTree) :
    build stage around (tokensWithin size text) =
      build stage around (lexemes.map Lexeme.token) := by
  -- the number of characters only has to be large enough for those that are left
  induction lays generalizing size stage around with
  | done => rw [tokensWithin_nil, List.map_nil]
  | blank isBlank _ inductionHypothesis =>
      obtain ⟨size, rfl⟩ := Nat.exists_eq_add_one_of_ne_zero (by simp at fits; omega : size ≠ 0)
      rw [tokensWithin, if_pos isBlank]
      exact inductionHypothesis spaced (by simpa using fits) stage around
  | @lexeme lexeme lexemes spelt text spells rest inductionHypothesis =>
      have ends : lexeme.isMark = false → Avoids isNumberPart text := by
        intro noMark
        refine rest.avoids fun next isHead => ?_
        have together := (List.isChain_cons.1 spaced).1 next isHead
        simpa [noMark] using together
      obtain ⟨first, more, rfl, notBlank, leads⟩ := spells.nextToken ends
      obtain ⟨size, rfl⟩ := Nat.exists_eq_add_one_of_ne_zero (by simp at fits; omega : size ≠ 0)
      have textFits : text.length ≤ size := by
        simp only [List.cons_append, List.length_cons, List.length_append] at fits
        omega
      rw [List.cons_append, tokensWithin, if_neg (by simp [notBlank]), List.map_cons]
      rcases leads with front | ⟨flaw, isFlawed, front⟩
      · simp only [front, build]
        split
        case h_1 stage around _ =>
            exact inductionHypothesis (List.isChain_cons.1 spaced).2 textFits stage around
        case h_2 => rfl
      · -- the reader stops here, so the lexemes behind this one make no difference
        simp only [front, isFlawed]
        exact build_flawed stage around flaw _ _

end PassScheduler.Json
