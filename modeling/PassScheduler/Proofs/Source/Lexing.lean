import Mathlib.Tactic.SplitIfs
import PassScheduler.Source.Lexer

/-!
Contract: where the pieces of a source text stand.

The pieces put one after the other are the text, and each of them begins where the one before it
ends.

Owns:
- that no character of a text is lost or read twice, and that every piece has one;
- that a span cuts its piece out of the text, and that spans follow each other;
- that names are what the text says at their spans.

Does not own: that no longer piece would do.
-/

namespace PassScheduler

theorem byteLength_append (front back : List Char) :
    byteLength (front ++ back) = byteLength front + byteLength back := by
  induction front with
  | nil => simp [byteLength]
  | cons c rest inductionHypothesis =>
      simp only [List.cons_append, byteLength, inductionHypothesis]
      omega

/-- The text lies at that span of the source. -/
def Span.Cuts (span : Span) (source text : List Char) : Prop :=
  ∃ before after, source = before ++ text ++ after ∧
    span = ⟨byteLength before, byteLength before + byteLength text⟩

namespace Lexer

/-! ## Single pieces -/

/-- What the piece at the front of a text is, by its first character. -/
inductive Front (c : Char) (rest : List Char) : Piece → Prop
  | blank (first : isBlank c) : Front c rest ⟨.skipped, c :: rest.takeWhile isBlank⟩
  | comment (first : c = ';') : Front c rest ⟨.skipped, c :: rest.takeWhile (· ≠ '\n')⟩
  | newline (first : c = '\n') :
      Front c rest ⟨.token .newline, c :: rest.takeWhile (· = '\n')⟩
  | value (first : c = '%') :
      Front c rest ⟨readValue (rest.takeWhile Char.isDigit), c :: rest.takeWhile Char.isDigit⟩
  | negative (first : c = '-') :
      Front c rest ⟨readNegative (rest.takeWhile Char.isDigit), c :: rest.takeWhile Char.isDigit⟩
  | natural (first : c.isDigit) :
      Front c rest
        ⟨readNatural (c :: rest.takeWhile Char.isDigit), c :: rest.takeWhile Char.isDigit⟩
  | word (first : isWordStart c) :
      Front c rest
        ⟨.token (.ofWord (String.ofList (c :: rest.takeWhile isWordPart))),
          c :: rest.takeWhile isWordPart⟩
  | symbol (noBlank : ¬ isBlank c) (noComment : c ≠ ';') (noNewline : c ≠ '\n')
      (noValue : c ≠ '%') (noSign : c ≠ '-') (noDigit : ¬ c.isDigit) (noWord : ¬ isWordStart c) :
      Front c rest ⟨readSymbol c, [c]⟩

theorem front_nextPiece (c : Char) (rest : List Char) : Front c rest (nextPiece c rest) := by
  unfold nextPiece
  split_ifs with blank comment newline value sign digit word
  · exact .blank blank
  · exact .comment comment
  · exact .newline newline
  · exact .value value
  · exact .negative sign
  · exact .natural digit
  · exact .word word
  · exact .symbol blank comment newline value sign digit word

/-- A piece takes the first character and some of those that follow it. -/
theorem Front.text {c : Char} {rest : List Char} {piece : Piece} (front : Front c rest piece) :
    ∃ more, piece.text = c :: more ∧ more <+: rest := by
  cases front with
  | symbol => exact ⟨[], rfl, List.nil_prefix⟩
  | _ => exact ⟨_, rfl, List.takeWhile_prefix _⟩

theorem ofWord_eq_ident {word name : String} (isName : Token.ofWord word = .ident name) :
    name = word := by
  unfold Token.ofWord at isName
  split at isName <;> cases isName
  rfl

theorem readSymbol_ne_ident (c : Char) (name : String) :
    readSymbol c ≠ .token (.ident name) := by
  unfold readSymbol
  split <;> simp

/-- A number that fits reads as its token only. -/
theorem token_of_fits {fits : Prop} [Decidable fits] {token other : Token}
    (reads : (if fits then Reading.token token else .unexpected) = .token other) :
    token = other := by
  split at reads
  · exact Reading.token.inj reads
  · cases reads

/-- A name is the text of its piece. -/
theorem Front.text_of_ident {c : Char} {rest : List Char} {piece : Piece} {name : String}
    (front : Front c rest piece) (isName : piece.reading = .token (.ident name)) :
    piece.text = name.toList := by
  cases front with
  | value => cases token_of_fits isName
  | negative => cases token_of_fits isName
  | natural => cases token_of_fits isName
  | word => rw [ofWord_eq_ident (Reading.token.inj isName), String.toList_ofList]
  | symbol => exact absurd isName (readSymbol_ne_ident c name)
  | _ => cases isName

/-! ## Rows of pieces -/

theorem text_pieces (chars : List Char) : (pieces chars).flatMap Piece.text = chars := by
  fun_induction pieces chars with
  | case1 => rfl
  | case2 c rest piece inductionHypothesis =>
      obtain ⟨more, isText, isPrefix⟩ := (front_nextPiece c rest).text
      rw [List.flatMap_cons, inductionHypothesis, isText, List.length_cons, Nat.add_sub_cancel,
        List.cons_append, List.prefix_iff_eq_append.1 isPrefix]

theorem exists_nextPiece {chars : List Char} {piece : Piece} (mem : piece ∈ pieces chars) :
    ∃ c rest, piece = nextPiece c rest := by
  fun_induction pieces chars with
  | case1 => cases mem
  | case2 c rest first inductionHypothesis =>
      rcases List.mem_cons.1 mem with isFirst | isLater
      · exact ⟨c, rest, isFirst⟩
      · exact inductionHypothesis isLater

variable {start : Nat} {row : List Piece} {piece : Piece} {span : Span}

theorem mem_of_located (mem : (piece, span) ∈ located start row) : piece ∈ row := by
  induction row generalizing start with
  | nil => cases mem
  | cons first rest inductionHypothesis =>
      rcases List.mem_cons.1 mem with isFirst | isLater
      · cases isFirst
        exact List.mem_cons_self
      · exact List.mem_cons_of_mem _ (inductionHypothesis isLater)

theorem start_le_of_located (mem : (piece, span) ∈ located start row) : start ≤ span.start := by
  induction row generalizing start with
  | nil => cases mem
  | cons first rest inductionHypothesis =>
      rcases List.mem_cons.1 mem with isFirst | isLater
      · cases isFirst
        exact Nat.le_refl start
      · exact Nat.le_trans (Nat.le_add_right _ _) (inductionHypothesis isLater)

/-- No piece begins before the one in front of it ends. -/
theorem pairwise_located (start : Nat) (row : List Piece) :
    (located start row).Pairwise fun left right => left.2.stop ≤ right.2.start := by
  induction row generalizing start with
  | nil => exact .nil
  | cons first rest inductionHypothesis =>
      refine .cons ?_ (inductionHypothesis _)
      rintro ⟨later, span⟩ mem
      exact start_le_of_located mem

/-- After some characters, a span cuts its piece out of these and the pieces. -/
theorem cuts_located {before : List Char}
    (mem : (piece, span) ∈ located (byteLength before) row) :
    span.Cuts (before ++ row.flatMap Piece.text) piece.text := by
  induction row generalizing before with
  | nil => cases mem
  | cons first rest inductionHypothesis =>
      rw [List.flatMap_cons, ← List.append_assoc]
      rcases List.mem_cons.1 mem with isFirst | isLater
      · cases isFirst
        exact ⟨before, rest.flatMap Piece.text, rfl, rfl⟩
      · rw [← byteLength_append] at isLater
        exact inductionHypothesis isLater

/-! ## Source texts -/

variable {source : String}

theorem cuts_scan (mem : (piece, span) ∈ scan source) :
    span.Cuts source.toList piece.text := by
  have cuts : span.Cuts ([] ++ (pieces source.toList).flatMap Piece.text) piece.text :=
    cuts_located mem
  rwa [List.nil_append, text_pieces] at cuts

theorem scan_of_tokens {token : Token} (mem : (token, span) ∈ tokens source) :
    ∃ piece, (piece, span) ∈ scan source ∧ piece.reading = .token token := by
  obtain ⟨⟨piece, found⟩, isScanned, isToken⟩ := List.mem_filterMap.1 mem
  dsimp only at isToken
  split at isToken
  · rename_i reads
    cases isToken
    exact ⟨piece, isScanned, reads⟩
  · cases isToken

/-- A name is the text at its span. -/
theorem cuts_ident {name : String} (mem : (.ident name, span) ∈ tokens source) :
    span.Cuts source.toList name.toList := by
  obtain ⟨piece, isScanned, isName⟩ := scan_of_tokens mem
  obtain ⟨c, rest, rfl⟩ := exists_nextPiece (mem_of_located isScanned)
  rw [← (front_nextPiece c rest).text_of_ident isName]
  exact cuts_scan isScanned

theorem pairwise_unexpected (source : String) :
    (unexpected source).Pairwise fun left right => left.2.stop ≤ right.2.start :=
  (pairwise_located 0 _).filter _

end Lexer

end PassScheduler
