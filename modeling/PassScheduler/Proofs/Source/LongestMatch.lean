import Mathlib.Data.List.Infix
import PassScheduler.Proofs.Source.Spelling

/-!
Contract: a source text is cut by longest match, and only one row of pieces is.

The patterns say which texts are one piece, without regard to what follows. At every place the
piece is the longest text that any pattern matches there, a fixed word is preferred to a name, and
a character at which no pattern matches anything stands on its own.

Owns:
- the patterns, the texts that they match and what these read as;
- the row of pieces that longest match leaves of a text, as a relation;
- that the pieces of every text are this row and no other one is.

Does not own: which tokens may follow which.
-/

namespace PassScheduler

/-- The texts that stand for one token each. -/
def Token.fixed : List (String × Token) :=
  [("fn", .fn), ("const", .const), ("copy", .copy), ("ret", .ret), ("jmp", .jmp), ("br", .br),
    ("add", .mnemonic .add), ("sub", .mnemonic .sub), ("mul", .mnemonic .mul),
    ("div", .mnemonic .div), ("eq", .mnemonic .eq), ("lt", .mnemonic .lt),
    ("(", .leftParen), (")", .rightParen), ("\x7b", .leftBrace), ("\x7d", .rightBrace),
    (",", .comma), ("=", .equals), (":", .colon)]

namespace Lexer

/-! ## Characters -/

def Digit (c : Char) : Prop :=
  '0' ≤ c ∧ c ≤ '9'

def Letter (c : Char) : Prop :=
  ('a' ≤ c ∧ c ≤ 'z') ∨ ('A' ≤ c ∧ c ≤ 'Z')

theorem isDigit_iff {c : Char} : c.isDigit ↔ Digit c := by
  unfold Digit Char.isDigit
  simp [Char.le_def]

theorem isAlpha_iff {c : Char} : c.isAlpha ↔ Letter c := by
  unfold Letter Char.isAlpha Char.isUpper Char.isLower
  simp [Char.le_def, or_comm]

theorem isBlank_iff {c : Char} : isBlank c ↔ c = ' ' ∨ c = '\t' ∨ c = '\r' := by
  simp [isBlank, or_assoc]

theorem isWordStart_iff {c : Char} : isWordStart c ↔ Letter c ∨ c = '_' := by
  simp [isWordStart, isAlpha_iff]

theorem isWordPart_iff {c : Char} : isWordPart c ↔ Letter c ∨ Digit c ∨ c = '_' ∨ c = '.' := by
  simp [isWordPart, Char.isAlphanum, isAlpha_iff, isDigit_iff, or_assoc]

/-! ## Patterns -/

/-- The number that some decimal digits name. -/
def decimal (digits : List Char) : Nat :=
  Nat.ofDigitChars 10 digits 0

/-- The number that decimal digits name, with or without a minus sign. -/
def signed : List Char → Int
  | '-' :: digits => -(decimal digits : Int)
  | digits => decimal digits

/-- The kinds of text that are one piece. -/
inductive Pattern where
  | blanks
  | comment
  | newlines
  | fixed (text : String) (token : Token)
  | value
  | int
  | name
deriving DecidableEq, Repr

namespace Pattern

/-- The texts of each kind. -/
inductive Matches : Pattern → List Char → Prop where
  | blanks {text : List Char} (nonempty : text ≠ [])
      (each : ∀ c ∈ text, c = ' ' ∨ c = '\t' ∨ c = '\r') : Matches .blanks text
  | comment {body : List Char} (oneLine : ∀ c ∈ body, c ≠ '\n') : Matches .comment (';' :: body)
  | newlines {text : List Char} (nonempty : text ≠ []) (each : ∀ c ∈ text, c = '\n') :
      Matches .newlines text
  | fixed {text : String} {token : Token} (listed : (text, token) ∈ Token.fixed) :
      Matches (.fixed text token) text.toList
  | value {digits : List Char} (nonempty : digits ≠ []) (each : ∀ c ∈ digits, Digit c) :
      Matches .value ('%' :: digits)
  | natural {digits : List Char} (nonempty : digits ≠ []) (each : ∀ c ∈ digits, Digit c) :
      Matches .int digits
  | negative {digits : List Char} (nonempty : digits ≠ []) (each : ∀ c ∈ digits, Digit c) :
      Matches .int ('-' :: digits)
  | name {first : Char} {more : List Char} (isFirst : Letter first ∨ first = '_')
      (each : ∀ c ∈ more, Letter c ∨ Digit c ∨ c = '_' ∨ c = '.') :
      Matches .name (first :: more)

/-- What a text of each kind reads as. A number that its type cannot hold is unexpected. -/
inductive Reads : Pattern → List Char → Reading → Prop where
  | blanks {text : List Char} : Reads .blanks text .skipped
  | comment {text : List Char} : Reads .comment text .skipped
  | newlines {text : List Char} : Reads .newlines text (.token .newline)
  | fixed {text : List Char} {word : String} {token : Token} :
      Reads (.fixed word token) text (.token token)
  | value {digits : List Char} {id : ValueId} (isNumber : id.index.toNat = decimal digits) :
      Reads .value ('%' :: digits) (.token (.value id))
  | valueOutside {digits : List Char} (outside : UInt32.size ≤ decimal digits) :
      Reads .value ('%' :: digits) .unexpected
  | int {text : List Char} {n : Int64} (isNumber : n.toInt = signed text) :
      Reads .int text (.token (.int n))
  | intOutside {text : List Char}
      (outside : signed text < Int64.minValue.toInt ∨ Int64.maxValue.toInt < signed text) :
      Reads .int text .unexpected
  | name {text : List Char} : Reads .name text (.token (.ident (String.ofList text)))

/-- Only a name gives way, and it does so to a fixed text. -/
def Preferred (pattern : Pattern) (text : List Char) : Prop :=
  pattern = .name → ∀ word token, ¬ Matches (.fixed word token) text

/-- A pattern claims a beginning of some text: it matches it, no pattern matches a longer one, and a
fixed text is no name. -/
structure Claims (pattern : Pattern) (text chars : List Char) : Prop where
  isMatch : pattern.Matches text
  isPrefix : text <+: chars
  longest : ∀ other longer, Matches other longer → longer <+: chars → longer.length ≤ text.length
  preferred : pattern.Preferred text

end Pattern

/-- The piece at the front of a text by longest match. A character stands on its own if nothing that
begins with it there matches any pattern. -/
inductive Chosen : List Char → Piece → Prop where
  | claimed {pattern : Pattern} {chars : List Char} {piece : Piece}
      (claims : pattern.Claims piece.text chars)
      (reads : pattern.Reads piece.text piece.reading) : Chosen chars piece
  | stray {c : Char} {rest : List Char}
      (unclaimed : ∀ pattern text, Pattern.Matches pattern text → ¬ text <+: c :: rest) :
      Chosen (c :: rest) ⟨.unexpected, [c]⟩

/-- Pieces that are cut from a text one after the other by longest match, with their spans, the
first of them starting at the given byte. -/
inductive Tiles : Nat → List Char → List (Piece × Span) → Prop where
  | done (start : Nat) : Tiles start [] []
  | next {start : Nat} {piece : Piece} {rest : List Char} {row : List (Piece × Span)}
      (chosen : Chosen (piece.text ++ rest) piece)
      (later : Tiles (start + byteLength piece.text) rest row) :
      Tiles start (piece.text ++ rest)
        ((piece, ⟨start, start + byteLength piece.text⟩) :: row)

/-! ## The piece at the front -/

section Front

variable {c : Char} {rest text : List Char} {pattern : Pattern}

theorem Pattern.Matches.ne_nil (isMatch : pattern.Matches text) : text ≠ [] := by
  cases isMatch with
  | blanks nonempty => exact nonempty
  | newlines nonempty => exact nonempty
  | natural nonempty => exact nonempty
  | @fixed text token listed =>
      have each : ∀ entry ∈ Token.fixed, entry.1.toList ≠ [] := by decide
      exact each (text, token) listed
  | comment | value | negative | name => exact List.cons_ne_nil _ _

/-- A fixed text is a word or a symbol. -/
theorem fixed_cases {word : String} {token : Token} (listed : (word, token) ∈ Token.fixed) :
    (isWord word ∧ Token.ofWord word = token) ∨
      ∃ c, word.toList = [c] ∧ readSymbol c = .token token := by
  have each : ∀ entry ∈ Token.fixed, (isWord entry.1 ∧ Token.ofWord entry.1 = entry.2) ∨
      entry.1.toList.map readSymbol = [.token entry.2] := by
    decide
  refine (each (word, token) listed).imp_right fun isSymbol => ?_
  exact List.map_eq_singleton_iff.1 isSymbol

/-- A beginning that goes on in a class is within the run of the class. -/
theorem prefix_run {among : Char → Bool} {first : Char} {more : List Char}
    (isPrefix : first :: more <+: c :: rest) (each : ∀ d ∈ more, among d) :
    first :: more <+: c :: rest.takeWhile among := by
  obtain ⟨rfl, after, rfl⟩ : first = c ∧ more <+: rest := List.cons_prefix_cons.1 isPrefix
  rw [List.takeWhile_append_of_pos each]
  exact List.cons_prefix_cons.2 ⟨rfl, List.prefix_append _ _⟩

theorem nextPiece_begins (c : Char) (rest : List Char) : (nextPiece c rest).text <+: c :: rest := by
  obtain ⟨more, isText, isPrefix⟩ := (front_nextPiece c rest).text
  rw [isText]
  exact List.cons_prefix_cons.2 ⟨rfl, isPrefix⟩

theorem nextPiece_blank (isFirst : isBlank c) (rest : List Char) :
    nextPiece c rest = ⟨.skipped, c :: rest.takeWhile isBlank⟩ :=
  if_pos isFirst

theorem nextPiece_symbol {token : Token} (isSymbol : readSymbol c = .token token)
    (rest : List Char) :
    nextPiece c rest = ⟨.token token, [c]⟩ := by
  rw [← isSymbol]
  unfold readSymbol at isSymbol
  split at isSymbol
  case h_8 => cases isSymbol
  all_goals rfl

theorem word_begins (isPrefix : text <+: c :: rest) {word : String} (isText : word.toList = text)
    (spelled : isWord word) :
    isWordStart c ∧ text <+: c :: rest.takeWhile isWordPart := by
  unfold isWord at spelled
  rw [isText] at spelled
  split at spelled
  · cases spelled
  · obtain ⟨isStart, each⟩ := Bool.and_eq_true_iff.1 spelled
    obtain ⟨rfl, -⟩ := List.cons_prefix_cons.1 isPrefix
    exact ⟨isStart, prefix_run isPrefix (List.all_eq_true.1 each)⟩

/-- Whatever a pattern matches at the front of a text is within the piece there. -/
theorem Pattern.Matches.prefix_nextPiece (isMatch : pattern.Matches text)
    (isPrefix : text <+: c :: rest) :
    text <+: (nextPiece c rest).text := by
  have digits : ∀ {more : List Char}, (∀ d ∈ more, Digit d) → ∀ d ∈ more, d.isDigit :=
    fun each d member => isDigit_iff.2 (each d member)
  cases isMatch with
  | blanks nonempty each =>
      obtain ⟨first, more, rfl⟩ := List.exists_cons_of_ne_nil nonempty
      obtain ⟨rfl, -⟩ := List.cons_prefix_cons.1 isPrefix
      obtain ⟨isFirst, others⟩ := List.forall_mem_cons.1 each
      rw [nextPiece_blank (isBlank_iff.2 isFirst)]
      exact prefix_run isPrefix fun d member => isBlank_iff.2 (others d member)
  | comment oneLine =>
      obtain ⟨rfl, -⟩ := List.cons_prefix_cons.1 isPrefix
      exact prefix_run isPrefix fun d member => decide_eq_true (oneLine d member)
  | newlines nonempty each =>
      obtain ⟨first, more, rfl⟩ := List.exists_cons_of_ne_nil nonempty
      obtain ⟨rfl, -⟩ := List.cons_prefix_cons.1 isPrefix
      obtain ⟨rfl, others⟩ := List.forall_mem_cons.1 each
      exact prefix_run isPrefix fun d member => decide_eq_true (others d member)
  | @fixed word token listed =>
      rcases fixed_cases listed with ⟨spelled, _⟩ | ⟨symbol, isText, isSymbol⟩
      · obtain ⟨isStart, within⟩ := word_begins isPrefix rfl spelled
        rw [nextPiece_word isStart]
        exact within
      · rw [isText] at isPrefix ⊢
        obtain ⟨rfl, -⟩ := List.cons_prefix_cons.1 isPrefix
        rw [nextPiece_symbol isSymbol]
  | value nonempty each =>
      obtain ⟨rfl, -⟩ := List.cons_prefix_cons.1 isPrefix
      exact prefix_run isPrefix (digits each)
  | natural nonempty each =>
      obtain ⟨first, more, rfl⟩ := List.exists_cons_of_ne_nil nonempty
      obtain ⟨rfl, -⟩ := List.cons_prefix_cons.1 isPrefix
      obtain ⟨isFirst, others⟩ := List.forall_mem_cons.1 each
      rw [nextPiece_digit (isDigit_iff.2 isFirst)]
      exact prefix_run isPrefix (digits others)
  | negative nonempty each =>
      obtain ⟨rfl, -⟩ := List.cons_prefix_cons.1 isPrefix
      exact prefix_run isPrefix (digits each)
  | name isFirst each =>
      obtain ⟨rfl, -⟩ := List.cons_prefix_cons.1 isPrefix
      rw [nextPiece_word (isWordStart_iff.2 isFirst)]
      exact prefix_run isPrefix fun d member => isWordPart_iff.2 (each d member)

/-- A pattern that matches the whole piece claims it, if it is not a name that is fixed. -/
theorem claims_nextPiece (isMatch : pattern.Matches (nextPiece c rest).text)
    (preferred : pattern.Preferred (nextPiece c rest).text) :
    pattern.Claims (nextPiece c rest).text (c :: rest) where
  isMatch := isMatch
  isPrefix := nextPiece_begins c rest
  longest _ _ isOther isPrefix := (isOther.prefix_nextPiece isPrefix).length_le
  preferred := preferred

/-! ### Numbers -/

theorem reads_value {digits : List Char} (nonempty : digits ≠ []) :
    Pattern.Reads .value ('%' :: digits) (readValue digits) := by
  unfold readValue
  by_cases fits : decimal digits < UInt32.size
  · rw [if_pos ⟨nonempty, fits⟩]
    exact .value (UInt32.toNat_ofNat_of_lt' fits)
  · rw [if_neg fun both => fits both.2]
    exact .valueOutside (Nat.le_of_not_lt fits)

theorem signed_of_digits {digits : List Char} (each : ∀ d ∈ digits, d.isDigit) :
    signed digits = decimal digits := by
  unfold signed
  split
  · exact absurd (each '-' List.mem_cons_self) (by decide)
  · rfl

theorem reads_natural {digits : List Char} (each : ∀ d ∈ digits, d.isDigit) :
    Pattern.Reads .int digits (readNatural digits) := by
  have half : UInt64.size / 2 = 2 ^ 63 := rfl
  have isSigned := signed_of_digits each
  unfold readNatural
  by_cases fits : decimal digits < 2 ^ 63
  · rw [if_pos (half ▸ fits)]
    exact .int ((Int64.toInt_ofNat_of_lt fits).trans isSigned.symm)
  · rw [if_neg (half ▸ fits)]
    refine .intOutside (.inr ?_)
    rw [isSigned, Int64.toInt_maxValue]
    omega

theorem reads_negative {digits : List Char} (nonempty : digits ≠ []) :
    Pattern.Reads .int ('-' :: digits) (readNegative digits) := by
  have half : UInt64.size / 2 = 2 ^ 63 := rfl
  have isSigned : signed ('-' :: digits) = -(decimal digits : Int) := rfl
  unfold readNegative
  by_cases fits : decimal digits ≤ 2 ^ 63
  · rw [if_pos ⟨nonempty, half ▸ fits⟩]
    refine .int ((Int64.toInt_ofInt_of_le ?_ ?_).trans isSigned.symm)
    · show -2 ^ 63 ≤ -(decimal digits : Int)
      omega
    · show -(decimal digits : Int) < 2 ^ 63
      omega
  · rw [if_neg fun both => fits (half ▸ both.2)]
    refine .intOutside (.inl ?_)
    rw [isSigned, Int64.toInt_minValue]
    omega

/-! ### Readings -/

/-- A word that is not free to name things is a fixed text. -/
theorem mem_fixed_of_reserved {word : String} (isReserved : word ∈ Token.reserved) :
    (word, Token.ofWord word) ∈ Token.fixed := by
  have each : ∀ word ∈ Token.reserved, (word, Token.ofWord word) ∈ Token.fixed := by decide
  exact each word isReserved

/-- The piece at the front reads as a pattern does that matches all of it. -/
theorem reads_nextPiece (isMatch : pattern.Matches (nextPiece c rest).text)
    (preferred : pattern.Preferred (nextPiece c rest).text) :
    pattern.Reads (nextPiece c rest).text (nextPiece c rest).reading := by
  have isPrefix := nextPiece_begins c rest
  generalize isText : (nextPiece c rest).text = text at isMatch isPrefix preferred ⊢
  cases isMatch with
  | blanks nonempty each =>
      obtain ⟨first, more, rfl⟩ := List.exists_cons_of_ne_nil nonempty
      obtain ⟨rfl, -⟩ := List.cons_prefix_cons.1 isPrefix
      rw [nextPiece_blank (isBlank_iff.2 (each first List.mem_cons_self))]
      exact .blanks
  | comment =>
      obtain ⟨rfl, -⟩ := List.cons_prefix_cons.1 isPrefix
      exact .comment
  | newlines nonempty each =>
      obtain ⟨first, more, rfl⟩ := List.exists_cons_of_ne_nil nonempty
      obtain ⟨rfl, -⟩ := List.cons_prefix_cons.1 isPrefix
      obtain rfl := each first List.mem_cons_self
      exact .newlines
  | @fixed word token listed =>
      rcases fixed_cases listed with ⟨spelled, rfl⟩ | ⟨symbol, isSymbolText, isSymbol⟩
      · obtain ⟨isStart, -⟩ := word_begins isPrefix rfl spelled
        rw [nextPiece_word isStart] at isText ⊢
        change c :: rest.takeWhile isWordPart = _ at isText
        have isWord : String.ofList (c :: rest.takeWhile isWordPart) = word := by
          rw [isText, String.ofList_toList]
        rw [isWord]
        exact .fixed
      · rw [isSymbolText] at isPrefix ⊢
        obtain ⟨rfl, -⟩ := List.cons_prefix_cons.1 isPrefix
        rw [nextPiece_symbol isSymbol]
        exact .fixed
  | value nonempty each =>
      obtain ⟨rfl, -⟩ := List.cons_prefix_cons.1 isPrefix
      obtain rfl := List.tail_eq_of_cons_eq isText
      exact reads_value nonempty
  | natural nonempty each =>
      obtain ⟨first, more, rfl⟩ := List.exists_cons_of_ne_nil nonempty
      obtain ⟨rfl, -⟩ := List.cons_prefix_cons.1 isPrefix
      have digits : ∀ d ∈ first :: more, d.isDigit :=
        fun d member => isDigit_iff.2 (each d member)
      rw [nextPiece_digit (digits first List.mem_cons_self)] at isText ⊢
      obtain rfl := List.tail_eq_of_cons_eq isText
      exact reads_natural digits
  | negative nonempty each =>
      obtain ⟨rfl, -⟩ := List.cons_prefix_cons.1 isPrefix
      obtain rfl := List.tail_eq_of_cons_eq isText
      exact reads_negative nonempty
  | @name first more isFirst each =>
      obtain ⟨rfl, -⟩ := List.cons_prefix_cons.1 isPrefix
      rw [nextPiece_word (isWordStart_iff.2 isFirst)] at isText ⊢
      have isFree : String.ofList (first :: more) ∉ Token.reserved := by
        intro isReserved
        have isFixed := Pattern.Matches.fixed (mem_fixed_of_reserved isReserved)
        rw [String.toList_ofList] at isFixed
        exact preferred rfl _ _ isFixed
      have isName := Token.ofWord_eq_ident_iff.2 ⟨rfl, isFree⟩
      change first :: rest.takeWhile isWordPart = _ at isText
      rw [isText, isName]
      exact .name

/-- A text that matches a pattern reads as one thing. -/
theorem Pattern.Reads.unique {left right : Reading} (reads : pattern.Reads text left)
    (readsAgain : pattern.Reads text right) :
    left = right := by
  cases reads with
  | @value digits id isNumber =>
      cases readsAgain with
      | @value _ other isSame =>
          have sameIndex := UInt32.toNat_inj.1 (isNumber.trans isSame.symm)
          exact congrArg (fun index => Reading.token (.value ⟨index⟩)) sameIndex
      | valueOutside outside =>
          have fits := id.index.toNat_lt_size
          omega
  | @valueOutside digits outside =>
      cases readsAgain with
      | @value _ id isNumber =>
          have fits := id.index.toNat_lt_size
          omega
      | valueOutside => rfl
  | @int _ n isNumber =>
      cases readsAgain with
      | int isSame => rw [Int64.toInt_inj.1 (isNumber.trans isSame.symm)]
      | intOutside outside =>
          have lower := n.minValue_le_toInt
          have upper := n.toInt_le
          omega
  | intOutside outside =>
      cases readsAgain with
      | @int _ n isNumber =>
          have lower := n.minValue_le_toInt
          have upper := n.toInt_le
          omega
      | intOutside => rfl
  | _ =>
      cases readsAgain
      rfl

/-- A symbol is a fixed text. -/
theorem readSymbol_cases (c : Char) :
    readSymbol c = .unexpected ∨
      ∃ token, readSymbol c = .token token ∧ (String.ofList [c], token) ∈ Token.fixed := by
  unfold readSymbol
  split
  case h_8 => exact .inl rfl
  all_goals exact .inr ⟨_, rfl, by decide⟩

/-- A character that some pattern matches on its own begins more than values and negative numbers. -/
theorem begins_of_matches (isMatch : pattern.Matches [c]) :
    isBlank c ∨ c = ';' ∨ c = '\n' ∨ c.isDigit ∨ isWordStart c ∨ readSymbol c ≠ .unexpected := by
  generalize isText : [c] = text at isMatch
  cases isMatch with
  | blanks _ each => exact .inl (isBlank_iff.2 (each c (isText ▸ List.mem_singleton_self c)))
  | comment => exact .inr (.inl (List.head_eq_of_cons_eq isText))
  | newlines _ each =>
      exact .inr (.inr (.inl (each c (isText ▸ List.mem_singleton_self c))))
  | natural _ each =>
      exact .inr (.inr (.inr (.inl (isDigit_iff.2 (each c (isText ▸ List.mem_singleton_self c))))))
  | value nonempty => exact absurd (List.tail_eq_of_cons_eq isText).symm nonempty
  | negative nonempty => exact absurd (List.tail_eq_of_cons_eq isText).symm nonempty
  | name isFirst =>
      obtain rfl := List.head_eq_of_cons_eq isText
      exact .inr (.inr (.inr (.inr (.inl (isWordStart_iff.2 isFirst)))))
  | fixed listed =>
      rcases fixed_cases listed with ⟨spelled, _⟩ | ⟨symbol, isSymbolText, isSymbol⟩
      · obtain ⟨isStart, -⟩ := word_begins List.prefix_rfl isText.symm spelled
        exact .inr (.inr (.inr (.inr (.inl isStart))))
      · obtain rfl := List.head_eq_of_cons_eq (isText.trans isSymbolText)
        exact .inr (.inr (.inr (.inr (.inr (by simp [isSymbol])))))

/-! ### Longest match -/

/-- At the front of a text, either some pattern matches the whole piece, or the piece is one
character on its own that no pattern matches. -/
theorem matches_or_stray (c : Char) (rest : List Char) :
    (∃ pattern, Pattern.Matches pattern (nextPiece c rest).text ∧
      pattern.Preferred (nextPiece c rest).text) ∨
      nextPiece c rest = ⟨.unexpected, [c]⟩ ∧ ∀ pattern, ¬ Pattern.Matches pattern [c] := by
  have run {among : Char → Bool} : ∀ d ∈ rest.takeWhile among, among d :=
    fun d member => List.all_eq_true.1 List.all_takeWhile d member
  have digits : ∀ d ∈ rest.takeWhile Char.isDigit, Digit d :=
    fun d member => isDigit_iff.1 (run d member)
  have front := front_nextPiece c rest
  generalize nextPiece c rest = piece at front ⊢
  cases front with
  | blank isFirst =>
      refine .inl ⟨.blanks, .blanks (List.cons_ne_nil _ _) ?_, fun isName => nomatch isName⟩
      exact List.forall_mem_cons.2
        ⟨isBlank_iff.1 isFirst, fun d member => isBlank_iff.1 (run d member)⟩
  | comment isFirst =>
      subst isFirst
      refine .inl ⟨.comment, .comment ?_, fun isName => nomatch isName⟩
      exact fun d member => of_decide_eq_true (run d member)
  | newline isFirst =>
      refine .inl ⟨.newlines, .newlines (List.cons_ne_nil _ _) ?_, fun isName => nomatch isName⟩
      exact List.forall_mem_cons.2 ⟨isFirst, fun d member => of_decide_eq_true (run d member)⟩
  | value isFirst =>
      subst isFirst
      by_cases isEmpty : rest.takeWhile Char.isDigit = []
      · rw [isEmpty]
        refine .inr ⟨rfl, fun pattern isMatch => absurd (begins_of_matches isMatch) (by decide)⟩
      · exact .inl ⟨.value, .value isEmpty digits, fun isName => nomatch isName⟩
  | negative isFirst =>
      subst isFirst
      by_cases isEmpty : rest.takeWhile Char.isDigit = []
      · rw [isEmpty]
        refine .inr ⟨rfl, fun pattern isMatch => absurd (begins_of_matches isMatch) (by decide)⟩
      · exact .inl ⟨.int, .negative isEmpty digits, fun isName => nomatch isName⟩
  | natural isFirst =>
      refine .inl ⟨.int, .natural (List.cons_ne_nil _ _) ?_, fun isName => nomatch isName⟩
      exact List.forall_mem_cons.2 ⟨isDigit_iff.1 isFirst, digits⟩
  | word isFirst =>
      by_cases isReserved :
          ∃ word token, Pattern.Matches (.fixed word token) (c :: rest.takeWhile isWordPart)
      · obtain ⟨word, token, isMatch⟩ := isReserved
        exact .inl ⟨.fixed word token, isMatch, fun isName => nomatch isName⟩
      · refine .inl ⟨.name, .name (isWordStart_iff.1 isFirst) ?_, ?_⟩
        · exact fun d member => isWordPart_iff.1 (run d member)
        · exact fun _ word token isMatch => isReserved ⟨word, token, isMatch⟩
  | symbol noBlank noComment noNewline _ _ noDigit noWord =>
      rcases readSymbol_cases c with isUnexpected | ⟨token, isSymbol, listed⟩
      · rw [isUnexpected]
        refine .inr ⟨rfl, fun pattern isMatch => ?_⟩
        rcases begins_of_matches isMatch with isFirst | isFirst | isFirst | isFirst | isFirst | isFirst
        · exact noBlank isFirst
        · exact noComment isFirst
        · exact noNewline isFirst
        · exact noDigit isFirst
        · exact noWord isFirst
        · exact isFirst isUnexpected
      · have isMatch := Pattern.Matches.fixed listed
        rw [String.toList_ofList] at isMatch
        exact .inl ⟨.fixed (String.ofList [c]) token, isMatch, fun isName => nomatch isName⟩

theorem chosen_nextPiece (c : Char) (rest : List Char) : Chosen (c :: rest) (nextPiece c rest) := by
  rcases matches_or_stray c rest with ⟨pattern, isMatch, preferred⟩ | ⟨isStray, unmatched⟩
  · exact .claimed (claims_nextPiece isMatch preferred) (reads_nextPiece isMatch preferred)
  · have isText : (nextPiece c rest).text = [c] := congrArg Piece.text isStray
    rw [isStray]
    refine .stray fun pattern text isMatch isPrefix => ?_
    have within : text <+: [c] := isText ▸ isMatch.prefix_nextPiece isPrefix
    have isOnly := within.eq_of_length_le (List.length_pos_of_ne_nil isMatch.ne_nil)
    exact unmatched pattern (isOnly ▸ isMatch)

/-- Longest match leaves no choice. -/
theorem Chosen.eq_nextPiece {piece : Piece} (chosen : Chosen (c :: rest) piece) :
    piece = nextPiece c rest := by
  cases chosen with
  | @claimed pattern _ _ claims reads =>
      have within := claims.isMatch.prefix_nextPiece claims.isPrefix
      have isText : piece.text = (nextPiece c rest).text := by
        rcases matches_or_stray c rest with ⟨other, isMatch, _⟩ | ⟨isStray, unmatched⟩
        · have bounded := claims.longest other _ isMatch (nextPiece_begins c rest)
          exact within.eq_of_length_le bounded
        · rw [isStray] at within ⊢
          exact within.eq_of_length_le (List.length_pos_of_ne_nil claims.isMatch.ne_nil)
      have readsNext := reads_nextPiece (isText ▸ claims.isMatch) (isText ▸ claims.preferred)
      have isReading := reads.unique (isText ▸ readsNext)
      calc
        piece = ⟨piece.reading, piece.text⟩ := rfl
        _ = ⟨(nextPiece c rest).reading, (nextPiece c rest).text⟩ := by rw [isReading, isText]
  | stray unclaimed =>
      rcases matches_or_stray c rest with ⟨pattern, isMatch, _⟩ | ⟨isStray, _⟩
      · exact absurd (nextPiece_begins c rest) (unclaimed pattern _ isMatch)
      · exact isStray.symm

end Front

/-! ## Rows of pieces -/

/-- The piece at the front and what is left behind it. -/
theorem nextPiece_append_drop (c : Char) (rest : List Char) :
    (nextPiece c rest).text ++ rest.drop ((nextPiece c rest).text.length - 1) = c :: rest := by
  obtain ⟨more, isText, isPrefix⟩ := (front_nextPiece c rest).text
  rw [isText, List.length_cons, Nat.add_sub_cancel, List.cons_append,
    List.prefix_iff_eq_append.1 isPrefix]

theorem not_chosen_nil (piece : Piece) : ¬ Chosen [] piece := by
  intro chosen
  cases chosen with
  | claimed claims => exact claims.isMatch.ne_nil (List.prefix_nil.1 claims.isPrefix)

/-- A piece that longest match chooses is the first one of the text. -/
theorem pieces_of_chosen {piece : Piece} {rest : List Char}
    (chosen : Chosen (piece.text ++ rest) piece) :
    pieces (piece.text ++ rest) = piece :: pieces rest := by
  generalize isWhole : piece.text ++ rest = chars at chosen ⊢
  cases chars with
  | nil => exact absurd chosen (not_chosen_nil piece)
  | cons c more =>
      obtain rfl := chosen.eq_nextPiece
      have isRest := List.append_cancel_left (isWhole.trans (nextPiece_append_drop c more).symm)
      rw [pieces, isRest]

theorem tiles_located (start : Nat) (chars : List Char) :
    Tiles start chars (located start (pieces chars)) := by
  fun_induction pieces chars generalizing start with
  | case1 => exact .done start
  | case2 c rest piece inductionHypothesis =>
      have chosen : Chosen (piece.text ++ rest.drop (piece.text.length - 1)) piece := by
        rw [nextPiece_append_drop]
        exact chosen_nextPiece c rest
      have tiled := Tiles.next chosen (inductionHypothesis (start + byteLength piece.text))
      rwa [nextPiece_append_drop] at tiled

theorem Tiles.eq_located {start : Nat} {chars : List Char} {row : List (Piece × Span)}
    (tiles : Tiles start chars row) :
    row = located start (pieces chars) := by
  induction tiles with
  | done start => rw [pieces, located]
  | next chosen later inductionHypothesis =>
      rw [pieces_of_chosen chosen, located, ← inductionHypothesis]

/-- Longest match cuts every text into exactly one row of pieces. It is the text without gap or
overlap, and the tokens and what is unexpected are those pieces of it, in their order. -/
theorem exists_unique_tiles (source : String) :
    ∃ row, (∀ other, Tiles 0 source.toList other ↔ other = row) ∧
      row.flatMap (fun entry => entry.1.text) = source.toList ∧
      (∀ entry ∈ row, entry.2.Cuts source.toList entry.1.text) ∧
      row.Pairwise (fun left right => left.2.stop ≤ right.2.start) ∧
      tokens source =
        row.filterMap (fun entry =>
          (Reading.token? entry.1.reading).map fun token => (token, entry.2)) ∧
      unexpected source = row.filter (fun entry => entry.1.reading = .unexpected) := by
  refine ⟨scan source, fun other => ⟨Tiles.eq_located, ?_⟩, ?_, ?_, pairwise_located 0 _, ?_, rfl⟩
  · rintro rfl
    exact tiles_located 0 source.toList
  · calc
      (scan source).flatMap (fun entry => entry.1.text) =
          ((scan source).map Prod.fst).flatMap Piece.text := (List.flatMap_map _ _ _).symm
      _ = (pieces source.toList).flatMap Piece.text := congrArg _ (map_fst_located 0 _)
      _ = source.toList := text_pieces source.toList
  · exact fun entry isScanned => cuts_scan isScanned
  · refine List.filterMap_congr fun entry _ => ?_
    cases entry.1.reading <;> rfl

end Lexer

end PassScheduler
