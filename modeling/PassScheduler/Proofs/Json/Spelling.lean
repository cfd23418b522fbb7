import PassScheduler.Json.Token
import PassScheduler.Json.Writer
import PassScheduler.Proofs.Source.Spelling

/-!
Contract: how strings and numbers may be written, and that each way is read.

A character has many spellings: itself, a short escape, four hexadecimal digits in either case, or a
pair of surrogates; a surrogate that stands alone spells nothing. A number has one spelling for its
whole part, and may have a fraction and an exponent.

Owns:
- the spellings of characters, and that a string is read off any of them;
- numerals, what they come to, and that they are read wherever they end;
- that a natural number that fits into 64 bits is exact.

Does not own: where in a text strings and numbers stand.
-/

namespace PassScheduler.Json

open Lexer (Avoids takeWhile_run)

/-! ## Strings -/

/-- The characters that have a short escape, each with its letter. -/
def shortEscapes : List (Char × Char) :=
  [('"', '"'), ('\\', '\\'), ('/', '/'), ('\x08', 'b'), ('\x0c', 'f'), ('\n', 'n'), ('\r', 'r'),
    ('\t', 't')]

/-- Four hexadecimal digits spell a number. -/
inductive SpellsUnit : Nat → List Char → Prop where
  | digits {first second third fourth : Char} {w x y z : Nat}
      (isFirst : hexValue? first = some w) (isSecond : hexValue? second = some x)
      (isThird : hexValue? third = some y) (isFourth : hexValue? fourth = some z) :
      SpellsUnit (((w * 16 + x) * 16 + y) * 16 + z) [first, second, third, fourth]

/-- What may stand for a character inside a string. -/
inductive SpellsChar : Char → List Char → Prop where
  | plain {c : Char} (noQuote : c ≠ '"') (noSlash : c ≠ '\\') (noControl : 0x20 ≤ c.toNat) :
      SpellsChar c [c]
  | short {c letter : Char} (known : (c, letter) ∈ shortEscapes) : SpellsChar c ['\\', letter]
  | unit {c : Char} {digits : List Char} (spells : SpellsUnit c.toNat digits) :
      SpellsChar c ('\\' :: 'u' :: digits)
  | pair {c : Char} {high low : Nat} {highDigits lowDigits : List Char}
      (isHigh : 0xd800 ≤ high ∧ high ≤ 0xdbff) (isLow : 0xdc00 ≤ low ∧ low ≤ 0xdfff)
      (together : c.toNat = 0x10000 + (high - 0xd800) * 0x400 + (low - 0xdc00))
      (spellsHigh : SpellsUnit high highDigits) (spellsLow : SpellsUnit low lowDigits) :
      SpellsChar c ('\\' :: 'u' :: highDigits ++ '\\' :: 'u' :: lowDigits)

/-- What may stand between the quotes of a string. -/
inductive SpellsChars : (chars spelt : List Char) → Prop where
  | nil : SpellsChars [] []
  | cons {c : Char} {chars spelt more : List Char} (first : SpellsChar c spelt)
      (rest : SpellsChars chars more) :
      SpellsChars (c :: chars) (spelt ++ more)

theorem SpellsUnit.length {n : Nat} {digits : List Char} (spells : SpellsUnit n digits) :
    digits.length = 4 := by
  cases spells
  rfl

theorem SpellsUnit.readHex {n : Nat} {digits : List Char} (spells : SpellsUnit n digits)
    (rest : List Char) :
    Json.readHex (digits ++ rest) = .ok n := by
  cases spells with
  | digits isFirst isSecond isThird isFourth =>
      simp [Json.readHex, isFirst, isSecond, isThird, isFourth]

/-- Four digits that spell no surrogate are read as the character of that number. -/
theorem readUnicode_unit {c : Char} {digits : List Char} (spells : SpellsUnit c.toNat digits)
    (rest : List Char) :
    readUnicode (digits ++ rest) = .ok (c, 4) := by
  have noSurrogate : c.toNat < 0xd800 ∨ 0xdfff < c.toNat := by
    rcases c.valid with below | above
    · exact .inl below
    · exact .inr above.1
  have noTail : ¬ (0xdc00 ≤ c.toNat ∧ c.toNat ≤ 0xdfff) := by omega
  have noLead : ¬ (0xd800 ≤ c.toNat ∧ c.toNat ≤ 0xdbff) := by omega
  simp only [readUnicode, spells.readHex, bind, Except.bind, if_neg noTail, if_neg noLead, pure,
    Except.pure, Char.ofNat_toNat]

/-- A leading and a trailing surrogate are read as one character. -/
theorem readUnicode_pair {c : Char} {high low : Nat} {highDigits lowDigits : List Char}
    (isHigh : 0xd800 ≤ high ∧ high ≤ 0xdbff) (isLow : 0xdc00 ≤ low ∧ low ≤ 0xdfff)
    (together : c.toNat = 0x10000 + (high - 0xd800) * 0x400 + (low - 0xdc00))
    (spellsHigh : SpellsUnit high highDigits) (spellsLow : SpellsUnit low lowDigits)
    (rest : List Char) :
    readUnicode (highDigits ++ '\\' :: 'u' :: (lowDigits ++ rest)) = .ok (c, 10) := by
  have noTail : ¬ (0xdc00 ≤ high ∧ high ≤ 0xdfff) := by omega
  have behindHigh : (highDigits ++ '\\' :: 'u' :: (lowDigits ++ rest)).drop 4 =
      '\\' :: 'u' :: (lowDigits ++ rest) := by
    rw [← spellsHigh.length, List.drop_left]
  have behindMark : (highDigits ++ '\\' :: 'u' :: (lowDigits ++ rest)).drop 6 =
      lowDigits ++ rest := by
    rw [← List.drop_drop (i := 2) (j := 4), behindHigh]
    rfl
  simp only [readUnicode, spellsHigh.readHex, bind, Except.bind, if_neg noTail, if_pos isHigh,
    behindHigh, pairFlaw?, behindMark, spellsLow.readHex, if_pos isLow, pure, Except.pure,
    ← together, Char.ofNat_toNat]

/-- A character is read off each of its spellings. -/
theorem SpellsChar.readString {c : Char} {spelt : List Char} (spells : SpellsChar c spelt)
    (rest : List Char) :
    Json.readString (spelt ++ rest) =
      (Json.readString rest).map fun (chars, rest) => (c :: chars, rest) := by
  cases spells with
  | plain noQuote noSlash noControl =>
      simp [Json.readString, Nat.not_lt.2 noControl]
  | short known =>
      simp only [shortEscapes, List.mem_cons, Prod.mk.injEq, List.not_mem_nil, or_false] at known
      rcases known with ⟨rfl, rfl⟩ | ⟨rfl, rfl⟩ | ⟨rfl, rfl⟩ | ⟨rfl, rfl⟩ | ⟨rfl, rfl⟩ |
        ⟨rfl, rfl⟩ | ⟨rfl, rfl⟩ | ⟨rfl, rfl⟩ <;> simp [Json.readString, readEscape]
  | @unit digits spells =>
      have escape : readEscape ('u' :: (digits ++ rest)) = .ok (c, 5) := by
        rw [readEscape, readUnicode_unit spells]
        rfl
      have behind : ('u' :: (digits ++ rest)).drop 5 = rest := by
        rw [List.drop_succ_cons, ← spells.length, List.drop_left]
      simp only [List.cons_append, Json.readString, escape, behind]
  | @pair high low highDigits lowDigits isHigh isLow together spellsHigh spellsLow =>
      have escape : readEscape ('u' :: (highDigits ++ '\\' :: 'u' :: (lowDigits ++ rest))) =
          .ok (c, 11) := by
        rw [readEscape, readUnicode_pair isHigh isLow together spellsHigh spellsLow]
        rfl
      have behind : ('u' :: (highDigits ++ '\\' :: 'u' :: (lowDigits ++ rest))).drop 11 = rest := by
        have whole : highDigits ++ '\\' :: 'u' :: (lowDigits ++ rest) =
            (highDigits ++ '\\' :: 'u' :: lowDigits) ++ rest := by simp
        have length : (highDigits ++ '\\' :: 'u' :: lowDigits).length = 10 := by
          simp [spellsHigh.length, spellsLow.length]
        rw [List.drop_succ_cons, whole, ← length, List.drop_left]
      simp only [List.cons_append, List.append_assoc, Json.readString, escape, behind]

/-- A string is read back up to its closing quote, whatever follows. -/
theorem SpellsChars.readString {chars spelt : List Char} (spells : SpellsChars chars spelt)
    (rest : List Char) :
    Json.readString (spelt ++ '"' :: rest) = .ok (chars, rest) := by
  induction spells with
  | nil => simp [Json.readString]
  | cons first _ inductionHypothesis =>
      rw [List.append_assoc, first.readString, inductionHypothesis]
      rfl

theorem hexValue?_digitChar : ∀ n < 16, hexValue? (Nat.digitChar n) = some n := by
  decide

/-- What is written for a character is one of its spellings. -/
theorem spellsChar_escapedChar (c : Char) : SpellsChar c (escapedChar c).toList := by
  unfold escapedChar
  split
  case h_8 noQuote noSlash _ _ _ _ _ =>
      split
      case isTrue isControl =>
          have spelt : c.toNat = ((0 * 16 + 0) * 16 + c.toNat / 16) * 16 + c.toNat % 16 := by omega
          have high := hexValue?_digitChar (c.toNat / 16) (by omega)
          have low := hexValue?_digitChar (c.toNat % 16) (by omega)
          have digits : SpellsUnit c.toNat
              ['0', '0', Nat.digitChar (c.toNat / 16), Nat.digitChar (c.toNat % 16)] := by
            rw [spelt]
            exact .digits rfl rfl (spelt ▸ high) (spelt ▸ low)
          simpa using SpellsChar.unit digits
      case isFalse noControl =>
          simpa using SpellsChar.plain noQuote noSlash (Nat.not_lt.1 noControl)
  all_goals exact .short (by decide)

theorem spellsChars_escaped (chars : List Char) :
    SpellsChars chars (chars.flatMap fun c => (escapedChar c).toList) := by
  induction chars with
  | nil => exact .nil
  | cons c chars inductionHypothesis =>
      exact .cons (spellsChar_escapedChar c) inductionHypothesis

theorem toList_quote (text : String) :
    (quote text).toList = '"' :: (text.toList.flatMap fun c => (escapedChar c).toList) ++ ['"'] := by
  simp [quote, String.toList_join, List.flatMap, Function.comp_def]

/-! ## Numbers -/

/-- At least one digit. -/
structure Digits where
  chars : List Char
  ne_nil : chars ≠ []
  isDigit : ∀ c ∈ chars, c.isDigit

/-- The signs that may stand before the digits of an exponent. -/
inductive ExponentSign where
  | absent
  | plus
  | minus

def ExponentSign.chars : ExponentSign → List Char
  | .absent => []
  | .plus => ['+']
  | .minus => ['-']

structure Exponent where
  mark : Char
  isMark : mark = 'e' ∨ mark = 'E'
  sign : ExponentSign
  digits : Digits

def Exponent.chars (exponent : Exponent) : List Char :=
  exponent.mark :: (exponent.sign.chars ++ exponent.digits.chars)

def Exponent.value (exponent : Exponent) : Int :=
  let size : Int := Nat.ofDigitChars 10 exponent.digits.chars 0
  match exponent.sign with
  | .minus => -size
  | _ => size

/-- A number as it may be written. -/
structure Numeral where
  negative : Bool := false
  whole : Nat
  fraction : Option Digits := none
  exponent : Option Exponent := none

namespace Numeral

def fractionChars : Option Digits → List Char
  | none => []
  | some digits => '.' :: digits.chars

def exponentChars : Option Exponent → List Char
  | none => []
  | some exponent => exponent.chars

/-- What stands behind the sign. -/
def magnitude (numeral : Numeral) : List Char :=
  Nat.toDigits 10 numeral.whole ++ fractionChars numeral.fraction ++
    exponentChars numeral.exponent

def chars (numeral : Numeral) : List Char :=
  if numeral.negative then '-' :: numeral.magnitude else numeral.magnitude

/-- The number that is meant; `none` if it is too large. -/
def number? (numeral : Numeral) : Option Number :=
  Number.ofParts? numeral.negative (Nat.toDigits 10 numeral.whole)
    (numeral.fraction.map Digits.chars) (numeral.exponent.map Exponent.value)

end Numeral

/-- Whether a number that has ended before a character might have gone on with it. -/
def isNumberPart (c : Char) : Bool :=
  c.isDigit || c = '.' || c = 'e' || c = 'E'

section Behind

variable {rest : List Char}

theorem avoids_isDigit (ends : Avoids isNumberPart rest) : Avoids Char.isDigit rest := by
  intro c isHead isDigit
  exact ends c isHead (by simp [isNumberPart, isDigit])

theorem readDigits_run {digits : List Char} (notEmpty : digits ≠ [])
    (areDigits : ∀ c ∈ digits, c.isDigit) (ends : Avoids Char.isDigit rest) :
    readDigits (digits ++ rest) = .ok (digits, rest) := by
  obtain ⟨first, more, rfl⟩ := List.exists_cons_of_ne_nil notEmpty
  have behind : (first :: more ++ rest).dropWhile Char.isDigit = rest := by
    rw [List.dropWhile_append_of_pos areDigits]
    cases rest with
    | nil => rfl
    | cons c _ => exact List.dropWhile_cons_of_neg (ends c rfl)
  have front := takeWhile_run areDigits ends
  rw [List.cons_append] at behind front ⊢
  simp only [readDigits, if_pos (areDigits first (by simp)), front, behind]

/-- Only zero itself starts with a zero. -/
theorem eq_nil_of_toDigits_zero (n : Nat) {more : List Char}
    (digits : Nat.toDigits 10 n = '0' :: more) : more = [] := by
  induction n using Nat.strongRecOn generalizing more with
  | ind n inductionHypothesis =>
      rcases Nat.lt_or_ge n 10 with isDigit | isLarge
      · rw [Nat.toDigits_of_lt_base isDigit] at digits
        exact (List.tail_eq_of_cons_eq digits).symm
      · rw [Nat.toDigits_of_base_le (by decide) isLarge] at digits
        obtain ⟨first, others, front⟩ :=
          List.exists_cons_of_ne_nil (Nat.toDigits_ne_nil (n := n / 10) (b := 10))
        rw [front, List.cons_append] at digits
        obtain rfl := List.head_eq_of_cons_eq digits
        have noOthers : others = [] := inductionHypothesis (n / 10) (by omega) front
        -- the digits of `n / 10` would be those of zero
        have isZero : n / 10 = 0 := by
          rw [← Nat.ofDigitChars_ten_toDigits (n := n / 10), front, noOthers]
          rfl
        omega

theorem readWhole_toDigits (n : Nat) (ends : Avoids Char.isDigit rest) :
    readWhole (Nat.toDigits 10 n ++ rest) = .ok (Nat.toDigits 10 n, rest) := by
  have areDigits : ∀ c ∈ Nat.toDigits 10 n, c.isDigit :=
    fun c => Nat.isDigit_of_mem_toDigits (by decide) (by decide)
  simp only [readWhole, readDigits_run Nat.toDigits_ne_nil areDigits ends, bind, Except.bind]
  split
  case h_1 second more digits =>
      have none := eq_nil_of_toDigits_zero n digits
      contradiction
  case h_2 => rfl

theorem readFraction_chars {fraction : Option Digits} (noPoint : Avoids (· = '.') rest)
    (ends : Avoids Char.isDigit rest) :
    readFraction (Numeral.fractionChars fraction ++ rest) =
      .ok (fraction.map Digits.chars, rest) := by
  cases fraction with
  | none =>
      cases rest with
      | nil => rfl
      | cons c more =>
          have noPoint : c ≠ '.' := fun isPoint => noPoint c rfl (by simp [isPoint])
          rw [Numeral.fractionChars, List.nil_append, readFraction]
          · rfl
          · rintro _ ⟨⟩
            exact noPoint rfl
  | some digits =>
      simp only [Numeral.fractionChars, List.cons_append, readFraction,
        readDigits_run digits.ne_nil digits.isDigit ends]
      rfl

/-- Without a sign the digits follow the mark of the exponent. -/
theorem readExponent_unsigned {mark first : Char} {more : List Char}
    (isMark : mark = 'e' ∨ mark = 'E') (isDigit : first.isDigit) :
    readExponent (mark :: first :: more) = (readDigits (first :: more)).map fun (digits, rest) =>
      (some (Nat.ofDigitChars 10 digits 0 : Int), rest) := by
  rw [readExponent, if_pos isMark]
  · rfl
  all_goals
    rintro _ ⟨⟩
    cases isDigit

theorem readExponent_chars {exponent : Option Exponent} (ends : Avoids isNumberPart rest) :
    readExponent (Numeral.exponentChars exponent ++ rest) =
      .ok (exponent.map Exponent.value, rest) := by
  cases exponent with
  | none =>
      cases rest with
      | nil => rfl
      | cons c more =>
          have noMark : ¬ (c = 'e' ∨ c = 'E') := by
            intro isMark
            exact ends c rfl (by rcases isMark with rfl | rfl <;> rfl)
          simp only [Numeral.exponentChars, List.nil_append, readExponent, if_neg noMark]
          rfl
  | some exponent =>
      have read := readDigits_run exponent.digits.ne_nil exponent.digits.isDigit
        (avoids_isDigit ends)
      obtain ⟨mark, isMark, sign, ⟨digits, notEmpty, areDigits⟩⟩ := exponent
      simp only [Numeral.exponentChars, Exponent.chars, List.cons_append]
      cases sign with
      | absent =>
          obtain ⟨first, others, rfl⟩ := List.exists_cons_of_ne_nil notEmpty
          simp only [List.cons_append] at read
          rw [ExponentSign.chars, List.nil_append, List.cons_append,
            readExponent_unsigned isMark (areDigits first (by simp)), read]
          rfl
      | plus =>
          simp only [ExponentSign.chars, List.cons_append, List.nil_append, readExponent,
            if_pos isMark, read]
          rfl
      | minus =>
          simp only [ExponentSign.chars, List.cons_append, List.nil_append, readExponent,
            if_pos isMark, read]
          rfl

end Behind

/-- A numeral is read up to where it ends, and refused there if its number is too large. -/
theorem Numeral.readNumber_magnitude (numeral : Numeral) {rest : List Char}
    (ends : Avoids isNumberPart rest) :
    readNumber numeral.negative (numeral.magnitude ++ rest) =
      match numeral.number? with
      | some number => .ok (number, rest)
      | none => .error .malformed := by
  obtain ⟨negative, whole, fraction, exponent⟩ := numeral
  have behindFraction : Avoids Char.isDigit (exponentChars exponent ++ rest) ∧
      Avoids (· = '.') (exponentChars exponent ++ rest) := by
    cases exponent with
    | none =>
        refine ⟨avoids_isDigit ends, fun c isHead isPoint => ends c isHead ?_⟩
        simp only [decide_eq_true_eq] at isPoint
        simp [isNumberPart, isPoint]
    | some exponent =>
        obtain ⟨mark, rfl | rfl, _, _⟩ := exponent <;>
          simp [Avoids, exponentChars, Exponent.chars]
  have behindWhole :
      Avoids Char.isDigit (fractionChars fraction ++ (exponentChars exponent ++ rest)) := by
    cases fraction with
    | none => exact behindFraction.1
    | some digits => simp [Avoids, fractionChars]
  simp only [readNumber, magnitude, List.append_assoc, readWhole_toDigits whole behindWhole,
    readFraction_chars behindFraction.2 behindFraction.1, readExponent_chars ends, bind,
    Except.bind, number?]
  rfl

/-! ## Exact numbers -/

theorem le_ofDigitChars (n : Nat) (digits : List Char) : n ≤ Nat.ofDigitChars 10 digits n := by
  rw [Nat.ofDigitChars_eq_ofDigitChars_zero]
  have atLeast : 1 * n ≤ 10 ^ digits.length * n :=
    Nat.mul_le_mul_right n (Nat.one_le_pow _ _ (by decide))
  omega

/-- As long as the number stays exact, all digits go into it. -/
theorem appendDigits_exact {n : Nat} {digits : List Char}
    (fits : Nat.ofDigitChars 10 digits n ≤ largestExact) :
    appendDigits n digits = (Nat.ofDigitChars 10 digits n, digits.length, 0) := by
  induction digits generalizing n with
  | nil => rfl
  | cons digit more inductionHypothesis =>
      rw [Nat.ofDigitChars_cons] at fits ⊢
      have nextFits := Nat.le_trans (le_ofDigitChars _ more) fits
      simp only [appendDigits, if_pos nextFits, inductionHypothesis fits, List.length_cons]

/-- The digits of a natural number that fits into 64 bits mean that number. -/
theorem Numeral.number?_natural {n : Nat} (fits : n < UInt64.size) :
    ({ whole := n } : Numeral).number? = some (.natural n) := by
  have exact : appendDigits 0 (Nat.toDigits 10 n) = (n, (Nat.toDigits 10 n).length, 0) := by
    have value := Nat.ofDigitChars_ten_toDigits (n := n)
    have fits : Nat.ofDigitChars 10 (Nat.toDigits 10 n) 0 ≤ largestExact := by
      rw [value]
      exact Nat.le_pred_of_lt fits
    rw [appendDigits_exact fits, value]
  simp [number?, Number.ofParts?, exact]

end PassScheduler.Json
