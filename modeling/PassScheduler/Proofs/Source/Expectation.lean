import PassScheduler.Proofs.Source.Parsing

/-!
Contract: which token is blamed when the tokens of a text make no program, and what is said to be
expected in its place.

Every place of the reader can be completed, so tokens are the beginning of some program iff the
reader refuses none of them. The token that is refused first is therefore the first that no
program goes on with, and what a place waits for are the tokens that some program has there.

Owns:
- beginnings of programs and what may follow them, said by the rules alone;
- that the one mismatch reported for a text is at the earliest place where there is any, and that
  it lists all that may follow there and nothing else.

Does not own: the order in which alternatives are listed, and the pieces that are no token.
-/

namespace PassScheduler

/-- The name under which a token is listed among what is expected. -/
def Token.expectation : Token → Grammar.Expectation
  | .value _ | .int _ | .mnemonic _ => .somethingElse
  | token => .kind token.kind

namespace Grammar

/-- The tokens of some program. -/
def Sentence (tokens : List Token) : Prop :=
  ∃ functions, ModuleRule tokens functions

/-- The tokens with which some program begins. -/
def Viable (tokens : List Token) : Prop :=
  ∃ rest, Sentence (tokens ++ rest)

/-- What some program has behind the tokens that were read. -/
inductive Follows (read : List Token) : Expectation → Prop where
  | token {token : Token} (viable : Viable (read ++ [token])) : Follows read token.expectation
  | endOfInput (sentence : Sentence read) : Follows read .endOfInput

/-- A mismatch at the first token that no program goes on with, or at the end of an input that only
begins some program. It lists what may follow there, each alternative once. -/
inductive Blames (size : Nat) (lexemes : List (Token × Span)) : Mismatch → Prop where
  | token {before after : List (Token × Span)} {token : Token} {span : Span}
      {expected : List Expectation} (split : lexemes = before ++ (token, span) :: after)
      (viable : Viable (before.map Prod.fst))
      (refused : ¬ Viable (before.map Prod.fst ++ [token])) (distinct : expected.Nodup)
      (follows : ∀ expectation, expectation ∈ expected ↔
        Follows (before.map Prod.fst) expectation) :
      Blames size lexemes ⟨span, some token, expected⟩
  | ending {expected : List Expectation} (viable : Viable (lexemes.map Prod.fst))
      (incomplete : ¬ Sentence (lexemes.map Prod.fst)) (distinct : expected.Nodup)
      (follows : ∀ expectation, expectation ∈ expected ↔
        Follows (lexemes.map Prod.fst) expectation) :
      Blames size lexemes ⟨⟨size, size⟩, none, expected⟩

/-! ## Completions -/

/-- There are tokens that lead to the end of a program. -/
def State.Completable (state : State) : Prop :=
  ∃ rest functions, state.Leads rest ⟨functions, .outside⟩

section Completable

variable {functions : List Function} {function : Function} {block : OpenBlock} {name : String}

theorem State.Completable.before {state next : State} (completable : next.Completable)
    (token : Token) (moved : state.step token = some next) :
    state.Completable := by
  obtain ⟨rest, functions, leads⟩ := completable
  exact ⟨token :: rest, functions, .cons moved leads⟩

theorem completable_outside : State.Completable ⟨functions, .outside⟩ :=
  ⟨[], functions, .nil⟩

theorem completable_blockBreak : State.Completable ⟨functions, .blockBreak function⟩ :=
  have closed : State.Completable ⟨functions, .nextLabel function⟩ :=
    completable_outside.before .rightBrace rfl
  closed.before .newline rfl

theorem completable_inTerm (place : TermPlace) :
    State.Completable ⟨functions, .inTerm block place⟩ := by
  have orElse (condition : Operand) (thenLabel : String) :
      State.Completable ⟨functions, .inTerm block (.brThenComma condition thenLabel)⟩ :=
    (completable_blockBreak.before (.ident "") rfl).before .comma rfl
  have orThen (condition : Operand) :
      State.Completable ⟨functions, .inTerm block (.brThen condition)⟩ :=
    (orElse condition "").before (.ident "") rfl
  cases place with
  | ret => exact completable_blockBreak.before (.int 0) rfl
  | jmp => exact completable_blockBreak.before (.ident "") rfl
  | br => exact ((orThen (.imm 0)).before .comma rfl).before (.int 0) rfl
  | brComma condition => exact (orThen condition).before .comma rfl
  | brThen condition => exact orThen condition
  | brThenComma condition thenLabel => exact orElse condition thenLabel
  | brElse condition thenLabel => exact completable_blockBreak.before (.ident "") rfl

theorem completable_line : State.Completable ⟨functions, .line block⟩ :=
  (completable_inTerm .ret).before .ret rfl

theorem completable_lineBreak : State.Completable ⟨functions, .lineBreak block⟩ :=
  completable_line.before .newline rfl

theorem completable_inInst (place : InstPlace) :
    State.Completable ⟨functions, .inInst block place⟩ := by
  have operand (dest : ValueId) : State.Completable ⟨functions, .inInst block (.const dest)⟩ :=
    completable_lineBreak.before (.int 0) rfl
  have operation (dest : ValueId) :
      State.Completable ⟨functions, .inInst block (.operation dest)⟩ :=
    (operand dest).before .const rfl
  have right (dest : ValueId) (op : BinOp) (lhs : Operand) :
      State.Completable ⟨functions, .inInst block (.binaryRhs dest op lhs)⟩ :=
    completable_lineBreak.before (.int 0) rfl
  have comma (dest : ValueId) (op : BinOp) (lhs : Operand) :
      State.Completable ⟨functions, .inInst block (.binaryComma dest op lhs)⟩ :=
    (right dest op lhs).before .comma rfl
  cases place with
  | equals dest => exact (operation dest).before .equals rfl
  | operation dest => exact operation dest
  | const dest => exact operand dest
  | copy dest => exact completable_lineBreak.before (.int 0) rfl
  | binary dest op => exact (comma dest op (.imm 0)).before (.int 0) rfl
  | binaryComma dest op lhs => exact comma dest op lhs
  | binaryRhs dest op lhs => exact right dest op lhs

theorem completable_labelColon : State.Completable ⟨functions, .labelColon function name⟩ :=
  completable_lineBreak.before .colon rfl

theorem completable_body : State.Completable ⟨functions, .body function⟩ :=
  have label : State.Completable ⟨functions, .firstLabel function⟩ :=
    completable_labelColon.before (.ident "") rfl
  label.before .leftBrace rfl

theorem completable_firstParameter : State.Completable ⟨functions, .firstParameter name⟩ :=
  completable_body.before .rightParen rfl

theorem completable_afterParameter {params : List ValueId} :
    State.Completable ⟨functions, .afterParameter name params⟩ :=
  completable_body.before .rightParen rfl

/-- Nothing that was read rules out that a program comes of it. -/
theorem State.completable (state : State) : state.Completable := by
  obtain ⟨functions, place⟩ := state
  have parameters (name : String) : State.Completable ⟨functions, .parameterList name⟩ :=
    completable_firstParameter.before .leftParen rfl
  cases place with
  | outside => exact completable_outside
  | functionName => exact (parameters "").before (.ident "") rfl
  | parameterList name => exact parameters name
  | firstParameter name => exact completable_firstParameter
  | afterParameter name params => exact completable_afterParameter
  | nextParameter name params =>
      exact completable_afterParameter.before (.value ⟨0⟩) rfl
  | body function => exact completable_body
  | firstLabel function => exact completable_labelColon.before (.ident "") rfl
  | labelColon function label => exact completable_labelColon
  | lineBreak block => exact completable_lineBreak
  | line block => exact completable_line
  | inInst block place => exact completable_inInst place
  | inTerm block place => exact completable_inTerm place
  | blockBreak function => exact completable_blockBreak
  | nextLabel function => exact completable_outside.before .rightBrace rfl

end Completable

/-! ## Beginnings of programs -/

section Viable

variable {state reached : State} {tokens more read : List Token} {token : Token}

theorem State.leads_append {final : State} :
    state.Leads (tokens ++ more) final ↔
      ∃ middle, state.Leads tokens middle ∧ middle.Leads more final := by
  simp only [Leads, List.foldlM_append, Option.bind_eq_bind, Option.bind_eq_some_iff]

theorem State.leads_singleton {final : State} :
    state.Leads [token] final ↔ state.step token = some final := by
  simp [Leads]

/-- Tokens begin some program iff the reader refuses none of them. -/
theorem viable_iff : Viable tokens ↔ ∃ state, State.start.Leads tokens state := by
  constructor
  · rintro ⟨rest, functions, derived⟩
    obtain ⟨state, leads, _⟩ := State.leads_append.1 derived.leads
    exact ⟨state, leads⟩
  · rintro ⟨state, leads⟩
    obtain ⟨rest, functions, completes⟩ := state.completable
    exact ⟨rest, functions, leads_iff_moduleRule.1 (leads.append completes)⟩

theorem viable_append_iff (leads : State.start.Leads read reached) :
    Viable (read ++ [token]) ↔ (reached.step token).isSome := by
  rw [viable_iff, Option.isSome_iff_exists]
  constructor
  · rintro ⟨next, longer⟩
    obtain ⟨middle, toMiddle, moved⟩ := State.leads_append.1 longer
    rw [toMiddle.unique leads] at moved
    exact ⟨next, State.leads_singleton.1 moved⟩
  · rintro ⟨next, moved⟩
    exact ⟨next, leads.append (State.leads_one moved)⟩

theorem sentence_iff (leads : State.start.Leads read reached) :
    Sentence read ↔ reached.place = .outside := by
  simp only [Sentence, ← leads_iff_moduleRule]
  constructor
  · rintro ⟨functions, complete⟩
    rw [leads.unique complete]
  · intro outside
    obtain ⟨functions, place⟩ := reached
    cases outside
    exact ⟨functions, leads⟩

end Viable

/-! ## What a place waits for -/

section Expected

variable {expectation : Expectation}

/-- A place inside an instruction lists the tokens that it moves on, and no others. -/
theorem InstPlace.mem_expected {place : InstPlace} :
    expectation ∈ place.expected ↔
      ∃ token : Token, (place.step token).isSome ∧ token.expectation = expectation := by
  constructor
  · intro listed
    cases place <;>
      simp only [expected, List.mem_cons, List.not_mem_nil, or_false] at listed
    case equals => exact ⟨.equals, rfl, listed.symm⟩
    case operation =>
      obtain rfl | rfl | rfl := listed
      · exact ⟨.const, rfl, rfl⟩
      · exact ⟨.copy, rfl, rfl⟩
      · exact ⟨.mnemonic .add, rfl, rfl⟩
    case binaryComma => exact ⟨.comma, rfl, listed.symm⟩
    all_goals exact ⟨.int 0, rfl, listed.symm⟩
  · rintro ⟨token, moves, rfl⟩
    cases place <;> cases token <;> cases moves <;> simp [expected, Token.expectation, Token.kind]

/-- A place inside a terminator lists the tokens that it moves on, and no others. -/
theorem TermPlace.mem_expected {place : TermPlace} :
    expectation ∈ place.expected ↔
      ∃ token : Token, (place.step token).isSome ∧ token.expectation = expectation := by
  constructor
  · intro listed
    cases place <;>
      simp only [expected, List.mem_cons, List.not_mem_nil, or_false] at listed
    case ret | br => exact ⟨.int 0, rfl, listed.symm⟩
    case jmp | brThen | brElse => exact ⟨.ident "", rfl, listed.symm⟩
    case brComma | brThenComma => exact ⟨.comma, rfl, listed.symm⟩
  · rintro ⟨token, moves, rfl⟩
    cases place <;> cases token <;> cases moves <;> simp [expected, Token.expectation, Token.kind]

@[simp]
theorem State.isSome_step_inInst {functions : List Function} {block : OpenBlock}
    {place : InstPlace} {token : Token} :
    (State.step ⟨functions, .inInst block place⟩ token).isSome = (place.step token).isSome := by
  simp [State.step, Place.step]

@[simp]
theorem State.isSome_step_inTerm {functions : List Function} {block : OpenBlock}
    {place : TermPlace} {token : Token} :
    (State.step ⟨functions, .inTerm block place⟩ token).isSome = (place.step token).isSome := by
  simp [State.step, Place.step]

theorem State.mem_expected_of_step {state : State} {token : Token}
    (moves : (state.step token).isSome) :
    token.expectation ∈ state.place.expected := by
  obtain ⟨functions, place⟩ := state
  cases place with
  | inInst block place => exact InstPlace.mem_expected.2 ⟨token, by simpa using moves, rfl⟩
  | inTerm block place => exact TermPlace.mem_expected.2 ⟨token, by simpa using moves, rfl⟩
  | _ => cases token <;> cases moves <;> simp [Place.expected, Token.expectation, Token.kind]

/-- Each alternative is the name of some token that the state moves on, apart from the end of input
where a program may end. -/
theorem State.exists_of_mem_expected {state : State} (listed : expectation ∈ state.place.expected) :
    (∃ token : Token, (state.step token).isSome ∧ token.expectation = expectation) ∨
      state.place = .outside ∧ expectation = .endOfInput := by
  obtain ⟨functions, place⟩ := state
  cases place <;> simp only [Place.expected, List.mem_cons, List.not_mem_nil, or_false] at listed
  case outside =>
    obtain rfl | rfl | rfl := listed
    · exact .inl ⟨.newline, rfl, rfl⟩
    · exact .inl ⟨.fn, rfl, rfl⟩
    · exact .inr ⟨rfl, rfl⟩
  case inInst block place => left; simpa using InstPlace.mem_expected.1 listed
  case inTerm block place => left; simpa using TermPlace.mem_expected.1 listed
  all_goals left
  case functionName => exact ⟨.ident "", rfl, listed.symm⟩
  case parameterList => exact ⟨.leftParen, rfl, listed.symm⟩
  case firstParameter =>
    obtain rfl | rfl := listed
    · exact ⟨.value ⟨0⟩, rfl, rfl⟩
    · exact ⟨.rightParen, rfl, rfl⟩
  case afterParameter =>
    obtain rfl | rfl := listed
    · exact ⟨.comma, rfl, rfl⟩
    · exact ⟨.rightParen, rfl, rfl⟩
  case nextParameter => exact ⟨.value ⟨0⟩, rfl, listed.symm⟩
  case body => exact ⟨.leftBrace, rfl, listed.symm⟩
  case labelColon => exact ⟨.colon, rfl, listed.symm⟩
  case lineBreak | blockBreak => exact ⟨.newline, rfl, listed.symm⟩
  case line =>
    obtain rfl | rfl | rfl | rfl | rfl := listed
    · exact ⟨.newline, rfl, rfl⟩
    · exact ⟨.value ⟨0⟩, rfl, rfl⟩
    · exact ⟨.ret, rfl, rfl⟩
    · exact ⟨.jmp, rfl, rfl⟩
    · exact ⟨.br, rfl, rfl⟩
  case firstLabel =>
    obtain rfl | rfl := listed
    · exact ⟨.newline, rfl, rfl⟩
    · exact ⟨.ident "", rfl, rfl⟩
  case nextLabel =>
    obtain rfl | rfl | rfl := listed
    · exact ⟨.newline, rfl, rfl⟩
    · exact ⟨.ident "", rfl, rfl⟩
    · exact ⟨.rightBrace, rfl, rfl⟩

/-- A state lists the tokens that it moves on and, where a program may end, the end of input. -/
theorem State.mem_expected {state : State} :
    expectation ∈ state.place.expected ↔
      (∃ token : Token, (state.step token).isSome ∧ token.expectation = expectation) ∨
        state.place = .outside ∧ expectation = .endOfInput := by
  constructor
  · exact exists_of_mem_expected
  · rintro (⟨token, moves, rfl⟩ | ⟨outside, rfl⟩)
    · exact mem_expected_of_step moves
    · rw [outside]
      simp [Place.expected]

theorem Place.nodup_expected (place : Place) : place.expected.Nodup := by
  cases place with
  | inInst block place => cases place <;> simp [expected, InstPlace.expected]
  | inTerm block place => cases place <;> simp [expected, TermPlace.expected]
  | _ => simp [expected]

end Expected

/-! ## Where the reader stops -/

/-- Where a run over all tokens of an input comes to a halt before the end of a program. -/
inductive State.Halts (size : Nat) (state : State) (lexemes : List (Token × Span)) :
    Mismatch → Prop where
  | token {before after : List (Token × Span)} {token : Token} {span : Span} {reached : State}
      (split : lexemes = before ++ (token, span) :: after)
      (leads : state.Leads (before.map Prod.fst) reached) (refused : reached.step token = none) :
      Halts size state lexemes ⟨span, some token, reached.place.expected⟩
  | ending {reached : State} (leads : state.Leads (lexemes.map Prod.fst) reached)
      (inside : reached.place ≠ .outside) :
      Halts size state lexemes ⟨⟨size, size⟩, none, reached.place.expected⟩

theorem State.halts_of_read_eq_error {size : Nat} {state : State} {lexemes : List (Token × Span)}
    {mismatch : Mismatch} (stopped : state.read size lexemes = .error mismatch) :
    state.Halts size lexemes mismatch := by
  induction lexemes generalizing state with
  | nil =>
      obtain ⟨functions, place⟩ := state
      unfold read at stopped
      split at stopped
      · cases stopped
      · rename_i unfinished
        cases stopped
        refine .ending .nil ?_
        rintro rfl
        cases unfinished
  | cons lexeme rest inductionHypothesis =>
      obtain ⟨token, span⟩ := lexeme
      unfold read at stopped
      split at stopped
      · rename_i next moved
        cases inductionHypothesis stopped with
        | @token before after _ _ _ split leads refused =>
            have longer : (token, span) :: rest = ((token, span) :: before) ++ _ :: after :=
              congrArg _ split
            exact .token longer (.cons moved leads) refused
        | ending leads inside => exact .ending (.cons moved leads) inside
      · rename_i refused
        cases stopped
        have here : (token, span) :: rest = [] ++ (token, span) :: rest := rfl
        exact .token here .nil refused

section Blames

variable {read : List Token} {reached : State} {expectation : Expectation}

theorem mem_expected_iff_follows (leads : State.start.Leads read reached) :
    expectation ∈ reached.place.expected ↔ Follows read expectation := by
  rw [State.mem_expected]
  constructor
  · rintro (⟨token, moves, rfl⟩ | ⟨outside, rfl⟩)
    · exact .token ((viable_append_iff leads).2 moves)
    · exact .endOfInput ((sentence_iff leads).2 outside)
  · rintro (viable | sentence)
    · exact .inl ⟨_, (viable_append_iff leads).1 viable, rfl⟩
    · exact .inr ⟨(sentence_iff leads).1 sentence, rfl⟩

theorem State.Halts.blames {size : Nat} {lexemes : List (Token × Span)} {mismatch : Mismatch}
    (halts : State.start.Halts size lexemes mismatch) : Blames size lexemes mismatch := by
  cases halts with
  | token split leads refused =>
      refine .token split (viable_iff.2 ⟨_, leads⟩) ?_ (Place.nodup_expected _)
        (fun _ => mem_expected_iff_follows leads)
      rw [viable_append_iff leads, refused]
      exact Bool.false_ne_true
  | ending leads inside =>
      exact .ending (viable_iff.2 ⟨_, leads⟩)
        (fun sentence => inside ((sentence_iff leads).1 sentence)) (Place.nodup_expected _)
        (fun _ => mem_expected_iff_follows leads)

end Blames

end Grammar

namespace Source

open Grammar (Sentence Blames State)

/-- A text whose tokens make no program has one problem with them. -/
theorem filter_mismatch_diagnostics {source : String} {mismatch : Grammar.Mismatch}
    (stopped : readTokens source = .error mismatch) :
    (diagnostics source).filter (·.code = some "E0002") = [mismatch.diagnostic] := by
  have noneOfPieces : (lexicalProblems source).filter (·.code = some "E0002") = [] := by
    rw [List.filter_eq_nil_iff]
    intro problem mem
    simp [code_of_lexicalProblems mem]
  rw [diagnostics_eq, List.filter_append, noneOfPieces, syntaxProblems, stopped]
  rfl

/-- Where the tokens of a text make no program, one problem with them is reported, whatever else
is wrong with the text. It is told of the first token that no program goes on with, or of the end
of the text where all tokens begin some program, and the alternatives are those that follow in
some program. -/
theorem mismatch_diagnostic_blames (source : String)
    (noSentence : ¬ Sentence ((Lexer.tokens source).map Prod.fst)) :
    ∃ mismatch, Blames source.utf8ByteSize (Lexer.tokens source) mismatch ∧
      (diagnostics source).filter (·.code = some "E0002") =
        [{ severity := .error, code := some "E0002", span := mismatch.span,
           message := mismatch.message }] := by
  cases result : readTokens source with
  | ok functions => exact absurd ⟨functions, readTokens_eq_ok.1 result⟩ noSentence
  | error mismatch =>
      have stopped := result
      rw [readTokens_eq] at stopped
      exact ⟨mismatch, (State.halts_of_read_eq_error stopped).blames,
        filter_mismatch_diagnostics result⟩

/-- The text of a function whose only block has no terminator. -/
def unterminatedText : String :=
  "fn f() \x7b\nentry:\n  %0 = const 1\n\x7d\n"

theorem mismatch_diagnostic_blames_unterminated :
    ¬ Sentence ((Lexer.tokens unterminatedText).map Prod.fst) ∧
      (∃ mismatch, Blames unterminatedText.utf8ByteSize (Lexer.tokens unterminatedText) mismatch ∧
        (diagnostics unterminatedText).filter (·.code = some "E0002") =
          [{ severity := .error, code := some "E0002", span := mismatch.span,
             message := mismatch.message }]) ∧
      (diagnostics unterminatedText).map (fun problem => (problem.span, problem.message)) =
        [(⟨31, 32⟩,
          "found '\x7d' expected '<newline>', something else, 'ret', 'jmp', or 'br'")] := by
  have refused : (readTokens unterminatedText).isOk = false := by decide +kernel
  have noSentence : ¬ Sentence ((Lexer.tokens unterminatedText).map Prod.fst) := by
    rintro ⟨functions, derived⟩
    rw [readTokens_eq_ok.2 derived] at refused
    cases refused
  exact ⟨noSentence, mismatch_diagnostic_blames unterminatedText noSentence, by decide +kernel⟩

end Source

end PassScheduler
