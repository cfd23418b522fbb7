import Mathlib.Data.List.Basic
import PassScheduler.Proofs.Source.Lexing

/-!
Contract: what a piece reads as in front of other text.

A piece goes on as long as its class of characters does. A word or a number therefore reads as
itself if what follows does not begin with a character of its class. Blanks leave no trace, and a
row of line ends reads like one.

Owns:
- the readings of a text, and its tokens in terms of them;
- the words, and the names among them, which are all that a text can call things by;
- the readings of words, values, integers, symbols, blanks and line ends in front of a text.

Does not own: which texts are written for what.
-/

namespace PassScheduler

/-- The words that are not free to name things. -/
def Token.reserved : List String :=
  ["fn", "const", "copy", "ret", "jmp", "br", "add", "sub", "mul", "div", "eq", "lt"]

theorem Token.ofWord_eq_ident_iff {word name : String} :
    Token.ofWord word = .ident name ↔ name = word ∧ word ∉ reserved := by
  unfold Token.ofWord
  split <;> simp_all [reserved, eq_comm]

theorem Token.ofWord_mnemonic (op : BinOp) : Token.ofWord op.mnemonic = .mnemonic op := by
  cases op <;> rfl

namespace Lexer

/-- A letter or an underscore, and then letters, digits, underscores and points. -/
def isWord (word : String) : Bool :=
  match word.toList with
  | [] => false
  | first :: rest => isWordStart first && rest.all isWordPart

/-- A word that is free to name things. -/
def isName (word : String) : Bool :=
  isWord word && !Token.reserved.contains word

theorem isName_iff {word : String} :
    isName word ↔ isWord word ∧ Token.ofWord word = .ident word := by
  simp [isName, Token.ofWord_eq_ident_iff]

/-! ## Readings -/

/-- What the pieces of a text read as, in order. Skipped ones are left out. -/
def readings (chars : List Char) : List Reading :=
  ((pieces chars).map Piece.reading).filter (· ≠ .skipped)

theorem map_fst_located (start : Nat) (row : List Piece) :
    (located start row).map Prod.fst = row := by
  induction row generalizing start with
  | nil => rfl
  | cons first rest inductionHypothesis => simp [located, inductionHypothesis]

theorem unexpected_eq_nil {source : String} :
    unexpected source = [] ↔ .unexpected ∉ readings source.toList := by
  have pieces : (scan source).map Prod.fst = pieces source.toList := map_fst_located 0 _
  simp only [unexpected, readings, ← pieces, List.filter_eq_nil_iff]
  simp

/-- The token that a piece reads as, if it does. -/
def Reading.token? : Reading → Option Token
  | .token token => some token
  | _ => none

theorem map_fst_tokens (source : String) :
    (tokens source).map Prod.fst = (readings source.toList).filterMap Reading.token? := by
  have pieces : (scan source).map Prod.fst = pieces source.toList := map_fst_located 0 _
  simp only [tokens, readings, ← pieces, List.map_filterMap, List.filterMap_filter,
    List.filterMap_map]
  apply List.filterMap_congr
  rintro ⟨piece, span⟩ _
  cases reads : piece.reading <;> simp [reads, Reading.token?]

/-- A text that reads as tokens alone has these tokens and nothing unexpected. -/
theorem spelled_of_readings {source : String} {row : List Token}
    (spelled : readings source.toList = row.map .token) :
    unexpected source = [] ∧ (tokens source).map Prod.fst = row := by
  constructor
  · rw [unexpected_eq_nil, spelled]
    simp
  · rw [map_fst_tokens, spelled, List.filterMap_map]
    exact List.filterMap_some

theorem Front.isName_of_ident {c : Char} {rest : List Char} {piece : Piece} {name : String}
    (front : Front c rest piece) (reads : piece.reading = .token (.ident name)) :
    isName name := by
  cases front with
  | value => cases token_of_fits reads
  | negative => cases token_of_fits reads
  | natural => cases token_of_fits reads
  | symbol => exact absurd reads (readSymbol_ne_ident c name)
  | word isStart =>
      have isWord : isWord (String.ofList (c :: rest.takeWhile isWordPart)) := by
        simp [Lexer.isWord, isStart]
      have isIdent := Reading.token.inj reads
      obtain rfl := ofWord_eq_ident isIdent
      exact isName_iff.2 ⟨isWord, isIdent⟩
  | _ => cases reads

/-- The names among the tokens of a text are names. -/
theorem isName_of_tokens {source name : String}
    (mem : .ident name ∈ (tokens source).map Prod.fst) :
    isName name := by
  obtain ⟨⟨_, span⟩, isToken, rfl⟩ := List.mem_map.1 mem
  obtain ⟨piece, isScanned, reads⟩ := scan_of_tokens isToken
  obtain ⟨c, rest, rfl⟩ := exists_nextPiece (mem_of_located isScanned)
  exact (front_nextPiece c rest).isName_of_ident reads

/-! ## Pieces in front of a text -/

/-- A text does not go on with a character of a class. -/
def Avoids (among : Char → Bool) (rest : List Char) : Prop :=
  ∀ c ∈ rest.head?, ¬ among c

section Front

variable {rest : List Char}

/-- A run of a class ends where the text after it begins, if that avoids the class. -/
theorem takeWhile_run {among : Char → Bool} {run : List Char} (all : ∀ c ∈ run, among c)
    (ends : Avoids among rest) :
    (run ++ rest).takeWhile among = run := by
  rw [List.takeWhile_append_of_pos all]
  cases rest with
  | nil => simp
  | cons c more => rw [List.takeWhile_cons_of_neg (ends c rfl), List.append_nil]

private theorem pieces_front {c : Char} {more : List Char} {piece : Piece}
    (front : nextPiece c (more ++ rest) = piece) (whole : piece.text = c :: more) :
    pieces (c :: (more ++ rest)) = piece :: pieces rest := by
  rw [pieces, front, whole]
  simp

private theorem readings_token {c : Char} {more : List Char} {token : Token}
    (front : nextPiece c (more ++ rest) = ⟨.token token, c :: more⟩) :
    readings (c :: (more ++ rest)) = .token token :: readings rest := by
  simp [readings, pieces_front front rfl]

private theorem readings_skipped {c : Char} {more : List Char}
    (front : nextPiece c (more ++ rest) = ⟨.skipped, c :: more⟩) :
    readings (c :: (more ++ rest)) = readings rest := by
  simp [readings, pieces_front front rfl]

theorem isDigit_of_wordStart {c : Char} (isStart : isWordStart c) : c.isDigit = false := by
  by_contra isDigit
  simp only [Char.isDigit, Bool.not_eq_false, Bool.and_eq_true, decide_eq_true_eq] at isDigit
  have letter : c.isAlpha = (c.isUpper || c.isLower) := rfl
  simp only [isWordStart, letter, Bool.or_eq_true, decide_eq_true_eq] at isStart
  rcases isStart with (isUpper | isLower) | rfl
  · have inside : 'A'.val ≤ c.val ∧ c.val ≤ 'Z'.val := of_decide_eq_true isUpper
    grind
  · have bounds : 'a'.val ≤ c.val ∧ c.val ≤ 'z'.val := by
      have both := Bool.and_eq_true_iff.1 isLower
      exact ⟨of_decide_eq_true both.1, of_decide_eq_true both.2⟩
    grind
  · exact absurd isDigit (by decide)

/-- A character that can begin a word begins nothing else. -/
theorem nextPiece_word {c : Char} (isStart : isWordStart c) (rest : List Char) :
    nextPiece c rest =
      ⟨.token (.ofWord (String.ofList (c :: rest.takeWhile isWordPart))),
        c :: rest.takeWhile isWordPart⟩ := by
  have other : ∀ d, isWordStart d = false → c ≠ d := by
    rintro d notStart rfl
    simp [isStart] at notStart
  have noBlank : isBlank c = false := by
    simp [isBlank, other ' ' rfl, other '\t' rfl, other '\r' rfl]
  simp [nextPiece, noBlank, isDigit_of_wordStart isStart, isStart, other ';' rfl, other '\n' rfl,
    other '%' rfl, other '-' rfl]

theorem nextPiece_digit {c : Char} (isDigit : c.isDigit) (rest : List Char) :
    nextPiece c rest =
      ⟨readNatural (c :: rest.takeWhile Char.isDigit), c :: rest.takeWhile Char.isDigit⟩ := by
  have other : ∀ d, d.isDigit = false → c ≠ d := by
    rintro d notDigit rfl
    simp [isDigit] at notDigit
  have noBlank : isBlank c = false := by
    simp [isBlank, other ' ' rfl, other '\t' rfl, other '\r' rfl]
  simp [nextPiece, noBlank, isDigit, other ';' rfl, other '\n' rfl, other '%' rfl, other '-' rfl]

/-! ### Words, symbols and spaces -/

theorem readings_word {word : String} (spelled : isWord word) (ends : Avoids isWordPart rest) :
    readings (word.toList ++ rest) = .token (.ofWord word) :: readings rest := by
  unfold isWord at spelled
  split at spelled
  · cases spelled
  · rename_i first more isText
    obtain ⟨isStart, areParts⟩ : isWordStart first ∧ ∀ c ∈ more, isWordPart c := by
      simpa using spelled
    have isWord : word = String.ofList (first :: more) := by
      rw [← isText, String.ofList_toList]
    have front := nextPiece_word isStart (more ++ rest)
    rw [takeWhile_run areParts ends, ← isWord] at front
    rw [isText]
    exact readings_token front

theorem readings_symbol {c : Char} {token : Token} (isSymbol : readSymbol c = .token token) :
    readings (c :: rest) = .token token :: readings rest := by
  have front : nextPiece c ([] ++ rest) = ⟨.token token, [c]⟩ := by
    rw [← isSymbol]
    unfold readSymbol at isSymbol
    split at isSymbol
    case h_8 => cases isSymbol
    all_goals rfl
  exact readings_token front

/-- A row of blanks leaves no trace, however far it goes on. -/
theorem readings_blank : readings (' ' :: rest) = readings rest := by
  have run : ∀ c more, isBlank c → readings (c :: more) = readings (more.dropWhile isBlank) := by
    intro c more isFirst
    have front : nextPiece c (more.takeWhile isBlank ++ more.dropWhile isBlank) =
        ⟨.skipped, c :: more.takeWhile isBlank⟩ := by
      rw [List.takeWhile_append_dropWhile, nextPiece, if_pos isFirst]
    have skipped := readings_skipped front
    rwa [List.takeWhile_append_dropWhile] at skipped
  rw [run ' ' rest rfl]
  cases rest with
  | nil => rfl
  | cons c more =>
      by_cases isNext : isBlank c
      · rw [List.dropWhile_cons_of_pos isNext, run c more isNext]
      · rw [List.dropWhile_cons_of_neg isNext]

private theorem readings_newlines (rest : List Char) :
    readings ('\n' :: rest) =
      .token .newline :: readings (rest.dropWhile (· = '\n')) := by
  have front : nextPiece '\n' (rest.takeWhile (· = '\n') ++ rest.dropWhile (· = '\n')) =
      ⟨.token .newline, '\n' :: rest.takeWhile (· = '\n')⟩ := by
    rw [List.takeWhile_append_dropWhile]
    rfl
  have first := readings_token front
  rwa [List.takeWhile_append_dropWhile] at first

theorem readings_newline (ends : Avoids (· = '\n') rest) :
    readings ('\n' :: rest) = .token .newline :: readings rest := by
  rw [readings_newlines]
  cases rest with
  | nil => rfl
  | cons c more => exact congrArg _ (congrArg readings (List.dropWhile_cons_of_neg (ends c rfl)))

/-- Two line ends are read as one. -/
theorem readings_newline_newline : readings ('\n' :: '\n' :: rest) = readings ('\n' :: rest) := by
  rw [readings_newlines, readings_newlines, List.dropWhile_cons_of_pos (by rfl)]

/-! ### Numbers -/

private theorem isDigit_of_mem_toDigits (n : Nat) : ∀ c ∈ Nat.toDigits 10 n, c.isDigit :=
  fun _ => Nat.isDigit_of_mem_toDigits (by decide) (by decide)

private theorem readValue_toDigits (id : ValueId) :
    readValue (Nat.toDigits 10 id.index.toNat) = .token (.value id) := by
  simp only [readValue, Nat.ofDigitChars_ten_toDigits]
  rw [if_pos ⟨Nat.toDigits_ne_nil, id.index.toNat_lt_size⟩, UInt32.ofNat_toNat]

private theorem readNatural_toDigits {n : Int64} {magnitude : Nat} (isN : n.toInt = magnitude) :
    readNatural (Nat.toDigits 10 magnitude) = .token (.int n) := by
  have half : UInt64.size / 2 = 2 ^ 63 := by decide
  have fits : magnitude < UInt64.size / 2 := by
    have bound := n.toInt_lt
    omega
  have same : Int64.ofInt magnitude = n := by rw [← isN, Int64.ofInt_toInt]
  simp only [readNatural, Nat.ofDigitChars_ten_toDigits]
  rw [if_pos fits]
  exact congrArg (Reading.token ∘ Token.int) same

private theorem readNegative_toDigits {n : Int64} {magnitude : Nat} (isN : n.toInt = -magnitude) :
    readNegative (Nat.toDigits 10 magnitude) = .token (.int n) := by
  have half : UInt64.size / 2 = 2 ^ 63 := by decide
  have fits : magnitude ≤ UInt64.size / 2 := by
    have bound := n.le_toInt
    omega
  have same : Int64.ofInt (-magnitude) = n := by rw [← isN, Int64.ofInt_toInt]
  simp only [readNegative, Nat.ofDigitChars_ten_toDigits]
  rw [if_pos ⟨Nat.toDigits_ne_nil, fits⟩, same]

theorem readings_value (id : ValueId) (ends : Avoids Char.isDigit rest) :
    readings (id.text.toList ++ rest) = .token (.value id) :: readings rest := by
  have isText : id.text.toList = '%' :: Nat.toDigits 10 id.index.toNat := by
    simp [ValueId.text]
  have front : nextPiece '%' (Nat.toDigits 10 id.index.toNat ++ rest) =
      ⟨.token (.value id), '%' :: Nat.toDigits 10 id.index.toNat⟩ := by
    rw [← readValue_toDigits, nextPiece, takeWhile_run (isDigit_of_mem_toDigits _) ends]
    rfl
  rw [isText]
  exact readings_token front

theorem readings_int (n : Int64) (ends : Avoids Char.isDigit rest) :
    readings (n.toInt.repr.toList ++ rest) = .token (.int n) :: readings rest := by
  cases sign : n.toInt with
  | ofNat magnitude =>
      have isText : (Int.ofNat magnitude).repr.toList = Nat.toDigits 10 magnitude := by
        simp [Int.repr]
      have digits := isDigit_of_mem_toDigits magnitude
      have reads := readNatural_toDigits sign
      rw [isText]
      cases spelled : Nat.toDigits 10 magnitude with
      | nil => exact absurd spelled Nat.toDigits_ne_nil
      | cons first more =>
          rw [spelled] at digits reads
          obtain ⟨isFirst, areMore⟩ := List.forall_mem_cons.1 digits
          have front := nextPiece_digit isFirst (more ++ rest)
          rw [takeWhile_run areMore ends, reads] at front
          exact readings_token front
  | negSucc predecessor =>
      have isText : (Int.negSucc predecessor).repr.toList =
          '-' :: Nat.toDigits 10 (predecessor + 1) := by
        simp [Int.repr]
      have front : nextPiece '-' (Nat.toDigits 10 (predecessor + 1) ++ rest) =
          ⟨.token (.int n), '-' :: Nat.toDigits 10 (predecessor + 1)⟩ := by
        have isNegative : n.toInt = -((predecessor + 1 : Nat) : Int) := sign
        rw [← readNegative_toDigits isNegative, nextPiece,
          takeWhile_run (isDigit_of_mem_toDigits _) ends]
        rfl
      rw [isText]
      exact readings_token front

end Front

end Lexer

end PassScheduler
