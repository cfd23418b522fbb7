import PassScheduler.Proofs.Source.Automaton

/-!
Contract: how the ways of putting parsers together relate to a reader that never goes back.

The reader is at a place where it waits for some tokens. A parser tries them one after the other,
so at any moment some of them have been tried in vain, and these are what is noted of the furthest
failure. A parser keeps up with the reader if it leads from one such moment to another, or fails
with what the reader would say. To go back is then no loss. Where an alternative has read a token
before it fails, its failure is further on than all that come after it, and nothing that comes after
it accepts that token.

Owns:
- cursors that are where the reader is, and parsers that keep up with it;
- that sequences, choices, rows of line ends and repetitions keep up if their parts do.

Does not own: which parsers are put together.
-/

namespace PassScheduler

open Grammar

/-! ## Single parsers -/

namespace Cursor

def head? (cursor : Cursor) : Option Token :=
  cursor.rest.head?.map Prod.fst

@[simp] theorem rest_fail (cursor : Cursor) (expectation : Expectation) :
    (cursor.fail expectation).rest = cursor.rest := by
  simp only [fail]
  split
  · rfl
  · split <;> rfl

theorem fail_of_ahead {cursor : Cursor} (ahead : cursor.furthest.rest.length < cursor.rest.length)
    (expectation : Expectation) :
    cursor.fail expectation = cursor := by
  rw [fail, if_neg (Nat.lt_asymm ahead), if_pos ahead]

theorem rewind_fail (cursor : Cursor) (expectation : Expectation) :
    (cursor.fail expectation).rewind cursor = cursor.fail expectation := by
  rw [rewind, ← rest_fail cursor expectation]

end Cursor

namespace Parser

variable {α β : Type}

theorem take_of_some {accept : Token → Option α} {expectation : Expectation} {cursor : Cursor}
    {token : Token} {value : α} (isHead : cursor.head? = some token)
    (accepted : accept token = some value) :
    take accept expectation cursor = (some value, ⟨cursor.rest.tail, cursor.furthest⟩) := by
  obtain ⟨_ | lexeme, furthest⟩ := cursor
  · cases isHead
  · obtain rfl := Option.some.inj isHead
    simp only [take, accepted]
    rfl

/-- A parser of one token does not fail on one that it accepts. -/
theorem take_ne_none {accept : Token → Option α} {expectation : Expectation}
    {cursor after : Cursor} {token : Token} (isHead : cursor.head? = some token)
    (accepted : (accept token).isSome) :
    take accept expectation cursor ≠ (none, after) := by
  obtain ⟨value, accepts⟩ := Option.isSome_iff_exists.1 accepted
  rw [take_of_some isHead accepts]
  nofun

theorem take_of_none {accept : Token → Option α} {expectation : Expectation} {cursor : Cursor}
    (refused : ∀ token, cursor.head? = some token → accept token = none) :
    take accept expectation cursor = (none, cursor.fail expectation) := by
  obtain ⟨rest, furthest⟩ := cursor
  cases rest with
  | nil => rfl
  | cons lexeme rest => simp only [take, refused lexeme.1 rfl]

theorem bind_apply (parser : Parser α) (next : α → Parser β) (cursor : Cursor) :
    (parser >>= next) cursor =
      match parser cursor with
      | (some value, after) => next value after
      | (none, after) => (none, after) := rfl

theorem bind_of_some {parser : Parser α} {next : α → Parser β} {cursor after : Cursor} {value : α}
    (succeeds : parser cursor = (some value, after)) :
    (parser >>= next) cursor = next value after := by
  rw [bind_apply, succeeds]

theorem bind_of_none {parser : Parser α} {next : α → Parser β} {cursor after : Cursor}
    (fails : parser cursor = (none, after)) :
    (parser >>= next) cursor = (none, after) := by
  rw [bind_apply, fails]

private theorem id_map (parser : Parser α) : id <$> parser = parser := by
  funext cursor
  show (parser >>= fun value => pure value) cursor = _
  rw [bind_apply]
  rcases parser cursor with ⟨_ | value, after⟩ <;> rfl

private theorem bind_assoc {γ : Type} (parser : Parser α) (next : α → Parser β)
    (last : β → Parser γ) :
    parser >>= next >>= last = parser >>= fun value => next value >>= last := by
  funext cursor
  rw [bind_apply, bind_apply, bind_apply]
  rcases parser cursor with ⟨_ | value, after⟩ <;> rfl

instance : LawfulMonad Parser :=
  LawfulMonad.mk' Parser id_map (fun _ _ => rfl) bind_assoc

theorem or_of_some {first second : Parser α} {cursor after : Cursor} {value : α}
    (succeeds : first cursor = (some value, after)) :
    first.or second cursor = (some value, after) := by
  rw [or, succeeds]

theorem or_of_none {first second : Parser α} {cursor after : Cursor}
    (fails : first cursor = (none, after)) :
    first.or second cursor = second (after.rewind cursor) := by
  rw [or, fails]

section Repetition

variable {item : Parser α} {least : Nat} {items : List α} {cursor after : Cursor}

theorem repeatedFrom_of_some {value : α} (reads : item cursor = (some value, after))
    (progress : after.rest.length < cursor.rest.length) :
    repeatedFrom item least items cursor = repeatedFrom item least (items ++ [value]) after := by
  rw [repeatedFrom, reads]
  exact if_pos progress

theorem repeatedFrom_of_none (fails : item cursor = (none, after)) :
    repeatedFrom item least items cursor =
      (if least ≤ items.length then some items else none, after.rewind cursor) := by
  rw [repeatedFrom, fails]

theorem separatedBy_of_some {separator : Parser β} {first : α}
    (reads : item cursor = (some first, after)) :
    item.separatedBy separator cursor =
      (separator.ignoreThen item).repeatedFrom 0 [first] after := by
  rw [separatedBy, reads]

theorem separatedBy_of_none {separator : Parser β} (fails : item cursor = (none, after)) :
    item.separatedBy separator cursor = (some [], after.rewind cursor) := by
  rw [separatedBy, fails]

end Repetition

end Parser

/-! ## What was tried -/

/-- A token that is looked for: which ones will do, and what is said if none is there. -/
structure Trial where
  accepts : Token → Bool
  expectation : Expectation

namespace Trial

def of {α : Type} (accept : Token → Option α) (expectation : Expectation) : Trial where
  accepts token := (accept token).isSome
  expectation := expectation

def just (token : Token) : Trial :=
  .of (fun found => if found = token then some found else none) (.kind token.kind)

theorem eq_of_accepts_just {token found : Token} (accepted : (just token).accepts found = true) :
    found = token := by
  simpa [just, of] using accepted

/-- What is expected where some tokens were looked for in vain. -/
def expectations (tried : List Trial) : List Expectation :=
  tried.foldl (fun expected trial => expecting expected trial.expectation) []

theorem expectations_append (tried : List Trial) (trial : Trial) :
    expectations (tried ++ [trial]) = expecting (expectations tried) trial.expectation :=
  List.foldl_append

end Trial

open Trial (expectations)

namespace Grammar

/-- Some tokens are all that a state waits for. -/
structure State.Waits (state : State) (tried : List Trial) : Prop where
  unfinished : state.finish? = none
  expected : state.place.expected = expectations tried
  refuses : ∀ token, (∀ trial ∈ tried, trial.accepts token = false) → state.step token = none

end Grammar

/-! ## Keeping up -/

/-- The size of an input, and what the reader says of it. -/
structure Target where
  size : Nat
  answer : Except Mismatch (List Function)

namespace Target

variable (target : Target) {α β : Type}

/-- The reader is in a state at the cursor, where some tokens have been looked for in vain. -/
structure At (state : State) (tried : List Trial) (cursor : Cursor) : Prop where
  answer : state.read target.size cursor.rest = target.answer
  refused : ∀ token, cursor.head? = some token → ∀ trial ∈ tried, trial.accepts token = false
  furthest : cursor.furthest = ⟨cursor.rest, expectations tried⟩ ∨
    tried = [] ∧ cursor.rest.length < cursor.furthest.rest.length

/-- A parser that had so many tokens left keeps up with the reader. -/
inductive Ends (count : Nat) (post : α → Cursor → Prop) : Option α × Cursor → Prop
  | success {value : α} {after : Cursor} (reached : post value after)
      (fewer : after.rest.length ≤ count) : Ends count post (some value, after)
  | failure {after : Cursor}
      (answer : target.answer = .error (after.furthest.mismatch target.size))
      (further : after.furthest.rest.length ≤ count) : Ends count post (none, after)

/-- From any cursor of one kind, a parser keeps up with the reader to one of another kind. -/
def Follows (pre : Cursor → Prop) (parser : Parser α) (post : α → Cursor → Prop) : Prop :=
  ∀ cursor, pre cursor → target.Ends cursor.rest.length post (parser cursor)

/-- A parser that begins by looking for a token: without it, that is all it does, and with it, the
parser keeps up with the reader and fails further on if at all. -/
structure Opens (state : State) (parser : Parser α) (trial : Trial) (post : α → Cursor → Prop) :
    Prop where
  refuses : ∀ cursor : Cursor,
    (∀ token, cursor.head? = some token → trial.accepts token = false) →
      ∃ after, parser cursor = (none, after) ∧
        after.rewind cursor = cursor.fail trial.expectation
  commits : ∀ {tried : List Trial} {token : Token} {span : Span} {rest : List (Token × Span)}
    {furthest : Failure}, trial.accepts token →
      target.At state tried ⟨(token, span) :: rest, furthest⟩ →
        target.Ends rest.length post (parser ⟨(token, span) :: rest, furthest⟩)

/-- A parser fails on a token, and nothing comes of that if there was a failure further on. -/
def Refuses (parser : Parser α) (token : Token) : Prop :=
  ∀ cursor : Cursor, cursor.head? = some token →
    cursor.furthest.rest.length < cursor.rest.length →
      ∃ after, parser cursor = (none, after) ∧ after.rewind cursor = cursor

end Target

namespace Target

variable {target : Target} {α β : Type} {state : State} {tried : List Trial} {trial : Trial}

/-! ## Failures -/

theorem Ends.mono {count more : Nat} {post : α → Cursor → Prop} {reply : Option α × Cursor}
    (ends : target.Ends count post reply) (le : count ≤ more) :
    target.Ends more post reply := by
  cases ends with
  | success reached fewer => exact .success reached (Nat.le_trans fewer le)
  | failure answer further => exact .failure answer (Nat.le_trans further le)

/-- A token that was looked for in vain joins those that were looked for before it. -/
theorem At.fail {cursor : Cursor} (here : target.At state tried cursor)
    (absent : ∀ token, cursor.head? = some token → trial.accepts token = false) :
    target.At state (tried ++ [trial]) (cursor.fail trial.expectation) := by
  obtain ⟨rest, furthest⟩ := cursor
  have noted : (Cursor.fail ⟨rest, furthest⟩ trial.expectation) =
      ⟨rest, ⟨rest, expectations (tried ++ [trial])⟩⟩ := by
    rw [Trial.expectations_append]
    rcases here.furthest with same | ⟨rfl, behind⟩
    · simp only at same
      simp [Cursor.fail, same]
    · simp only at behind
      simp [Cursor.fail, behind, expectations, expecting]
  rw [noted]
  refine ⟨here.answer, fun token isHead => ?_, .inl rfl⟩
  simp only [List.mem_append, List.mem_singleton]
  rintro one (wasTried | rfl)
  · exact here.refused token isHead one wasTried
  · exact absent token isHead

/-- Where all that the reader waits for was looked for in vain, it says what is noted. -/
theorem At.lost {cursor : Cursor} (here : target.At state (tried ++ [trial]) cursor)
    (waits : state.Waits (tried ++ [trial])) :
    target.answer = .error (cursor.furthest.mismatch target.size) ∧
      cursor.furthest.rest = cursor.rest := by
  obtain ⟨rest, furthest⟩ := cursor
  obtain same | ⟨empty, _⟩ := here.furthest
  · simp only at same
    refine ⟨?_, by rw [same]⟩
    rw [← here.answer, same, ← waits.expected]
    cases rest with
    | nil => simp only [State.read, waits.unfinished, Failure.mismatch]
    | cons lexeme rest =>
        have refused := waits.refuses lexeme.1 (here.refused lexeme.1 rfl)
        simp only [State.read, refused, Failure.mismatch]
  · simp at empty

/-! ## Tokens -/

theorem Refuses.take {accept : Token → Option α} {token : Token} (refused : accept token = none)
    (expectation : Expectation) :
    Refuses (Parser.take accept expectation) token := by
  intro cursor isHead ahead
  refine ⟨cursor, ?_, rfl⟩
  rw [Parser.take_of_none (by simpa [isHead] using refused), Cursor.fail_of_ahead ahead]

theorem opens_take {accept : Token → Option α} {reached : α → State}
    (moves : ∀ token value, accept token = some value → state.step token = some (reached value))
    (expectation : Expectation) :
    target.Opens state (Parser.take accept expectation) (.of accept expectation)
      fun value => target.At (reached value) [] where
  refuses cursor absent := by
    refine ⟨cursor.fail expectation, Parser.take_of_none ?_, Cursor.rewind_fail cursor expectation⟩
    intro token isHead
    simpa [Trial.of] using absent token isHead
  commits {tried token span rest furthest} accepted here := by
    obtain ⟨value, accepts⟩ := Option.isSome_iff_exists.1 accepted
    have moved := moves token value accepts
    have behind : rest.length < furthest.rest.length := by
      rcases here.furthest with same | ⟨_, behind⟩
      · simp only at same
        simp [same]
      · exact Nat.lt_of_succ_lt behind
    simp only [Parser.take, accepts]
    refine .success ⟨?_, by simp, .inr ⟨rfl, behind⟩⟩ (Nat.le_refl _)
    rw [← here.answer]
    simp only [State.read, moved]

theorem opens_just {token : Token} {next : State} (moved : state.step token = some next) :
    target.Opens state (Parser.just token) (.just token) fun _ => target.At next [] := by
  refine opens_take (fun found value accepted => ?_) _
  split at accepted
  · rename_i isToken
    rw [isToken, moved]
  · cases accepted

/-- Either the token that a parser begins with is missing, or the parser reads it. -/
theorem Opens.missing_or_ends {parser : Parser α} {post : α → Cursor → Prop} {cursor : Cursor}
    (opens : target.Opens state parser trial post) (here : target.At state tried cursor) :
    (∃ after, parser cursor = (none, after) ∧
        target.At state (tried ++ [trial]) (after.rewind cursor)) ∨
      ∃ token, cursor.head? = some token ∧ trial.accepts token = true ∧
        ∃ count < cursor.rest.length, target.Ends count post (parser cursor) := by
  have missing (absent : ∀ token, cursor.head? = some token → trial.accepts token = false) :
      ∃ after, parser cursor = (none, after) ∧
        target.At state (tried ++ [trial]) (after.rewind cursor) := by
    obtain ⟨after, fails, back⟩ := opens.refuses _ absent
    exact ⟨after, fails, back ▸ here.fail absent⟩
  obtain ⟨rest, furthest⟩ := cursor
  cases rest with
  | nil => exact .inl (missing (by simp [Cursor.head?]))
  | cons lexeme rest =>
      cases accepted : trial.accepts lexeme.1 with
      | false => exact .inl (missing (by simp [Cursor.head?, accepted]))
      | true =>
          exact .inr ⟨lexeme.1, rfl, accepted, rest.length, Nat.lt_succ_self _,
            opens.commits accepted here⟩

/-- A parser that begins by looking for a token keeps up if the reader waits for no other. -/
theorem Opens.follows {parser : Parser α} {post : α → Cursor → Prop}
    (opens : target.Opens state parser trial post) (waits : state.Waits (tried ++ [trial])) :
    target.Follows (target.At state tried) parser post := by
  intro cursor here
  rcases opens.missing_or_ends here with ⟨after, fails, back⟩ | ⟨_, _, _, count, fewer, ends⟩
  · obtain ⟨answer, isHere⟩ := back.lost waits
    rw [fails]
    exact .failure answer (Nat.le_of_eq (congrArg List.length isHere))
  · exact ends.mono (Nat.le_of_lt fewer)

/-- A parser that begins by looking for a token refuses all others. -/
theorem Opens.refuses_token {parser : Parser α} {post : α → Cursor → Prop} {token : Token}
    (opens : target.Opens state parser trial post) (rejected : trial.accepts token = false) :
    Refuses parser token := by
  intro cursor isHead ahead
  obtain ⟨after, fails, back⟩ := opens.refuses cursor (by simpa [isHead] using rejected)
  exact ⟨after, fails, back.trans (Cursor.fail_of_ahead ahead _)⟩

/-! ## Sequences -/

theorem Ends.bind {count : Nat} {parser : Parser α} {next : α → Parser β} {cursor : Cursor}
    {middle : α → Cursor → Prop} {post : β → Cursor → Prop}
    (ends : target.Ends count middle (parser cursor))
    (follows : ∀ value, target.Follows (middle value) (next value) post) :
    target.Ends count post ((parser >>= next) cursor) := by
  generalize reads : parser cursor = reply at ends
  cases ends with
  | success reached fewer =>
      rw [Parser.bind_of_some reads]
      exact (follows _ _ reached).mono fewer
  | failure answer further =>
      rw [Parser.bind_of_none reads]
      exact .failure answer further

theorem Follows.bind {pre : Cursor → Prop} {parser : Parser α} {next : α → Parser β}
    {middle : α → Cursor → Prop} {post : β → Cursor → Prop}
    (first : target.Follows pre parser middle)
    (second : ∀ value, target.Follows (middle value) (next value) post) :
    target.Follows pre (parser >>= next) post :=
  fun cursor here => (first cursor here).bind second

theorem Follows.pure {pre : Cursor → Prop} {post : α → Cursor → Prop} {value : α}
    (reached : ∀ cursor, pre cursor → post value cursor) :
    target.Follows pre (pure value) post :=
  fun cursor here => .success (reached cursor here) (Nat.le_refl _)

theorem Opens.bind {parser : Parser α} {next : α → Parser β} {middle : α → Cursor → Prop}
    {post : β → Cursor → Prop} (opens : target.Opens state parser trial middle)
    (follows : ∀ value, target.Follows (middle value) (next value) post) :
    target.Opens state (parser >>= next) trial post where
  refuses cursor absent := by
    obtain ⟨after, fails, back⟩ := opens.refuses cursor absent
    exact ⟨after, Parser.bind_of_none fails, back⟩
  commits accepted here := (opens.commits accepted here).bind follows

theorem Refuses.bind {parser : Parser α} {token : Token} (refuses : Refuses parser token)
    (next : α → Parser β) :
    Refuses (parser >>= next) token := by
  intro cursor isHead ahead
  obtain ⟨after, fails, back⟩ := refuses cursor isHead ahead
  exact ⟨after, Parser.bind_of_none fails, back⟩

theorem Follows.map {pre : Cursor → Prop} {parser : Parser α} {change : α → β}
    {post : β → Cursor → Prop}
    (follows : target.Follows pre parser fun value => post (change value)) :
    target.Follows pre (parser.map change) post :=
  follows.bind fun _ => .pure fun _ here => here

theorem Opens.map {parser : Parser α} {change : α → β} {post : β → Cursor → Prop}
    (opens : target.Opens state parser trial fun value => post (change value)) :
    target.Opens state (parser.map change) trial post :=
  opens.bind fun _ => .pure fun _ here => here

/-! ## Choices -/

/-- What comes after a failure further on only fails again. -/
theorem Refuses.fails {parser : Parser α} {token : Token} {cursor after : Cursor}
    (refuses : Refuses parser token) (isHead : cursor.head? = some token)
    (further : after.furthest.rest.length < cursor.rest.length) :
    ∃ last, parser (after.rewind cursor) = (none, last) ∧ last.furthest = after.furthest := by
  obtain ⟨last, fails, back⟩ := refuses (after.rewind cursor) isHead further
  exact ⟨last, fails, congrArg (·.furthest) back⟩

/-- An alternative that fails after it has read a token was the only one to accept it. -/
theorem Opens.or {first second : Parser α} {post : α → Cursor → Prop}
    (opens : target.Opens state first trial post)
    (follows : target.Follows (target.At state (tried ++ [trial])) second post)
    (refuses : ∀ token, trial.accepts token = true → Refuses second token) :
    target.Follows (target.At state tried) (first.or second) post := by
  intro cursor here
  rcases opens.missing_or_ends here with
    ⟨after, fails, back⟩ | ⟨token, isHead, accepted, count, fewer, ends⟩
  · rw [Parser.or_of_none fails]
    exact follows _ back
  · generalize reads : first cursor = reply at ends
    cases ends with
    | success reached shorter =>
        rw [Parser.or_of_some reads]
        exact .success reached (Nat.le_trans shorter (Nat.le_of_lt fewer))
    | failure answer further =>
        obtain ⟨last, fails, same⟩ :=
          (refuses token accepted).fails isHead (Nat.lt_of_le_of_lt further fewer)
        rw [Parser.or_of_none reads, fails]
        rw [← same] at answer further
        exact .failure answer (Nat.le_trans further (Nat.le_of_lt fewer))

theorem Refuses.or {first second : Parser α} {token : Token} (firstRefuses : Refuses first token)
    (secondRefuses : Refuses second token) :
    Refuses (first.or second) token := by
  intro cursor isHead ahead
  obtain ⟨after, fails, back⟩ := firstRefuses cursor isHead ahead
  rw [Parser.or_of_none fails, back]
  exact secondRefuses cursor isHead ahead

/-- Three alternatives, the first two of which begin with a word that no later one begins with. -/
theorem Opens.or_or {first second third : Parser α} {one other : Token} {post : α → Cursor → Prop}
    (opensFirst : target.Opens state first (.just one) post)
    (opensSecond : target.Opens state second (.just other) post)
    (opensThird : target.Opens state third trial post)
    (notSecond : (Trial.just other).accepts one = false)
    (notThird : trial.accepts one = false ∧ trial.accepts other = false)
    (waits : state.Waits (tried ++ [.just one] ++ [.just other] ++ [trial])) :
    target.Follows (target.At state tried) (first.or (second.or third)) post := by
  refine opensFirst.or (opensSecond.or (opensThird.follows waits) fun _ isOther => ?_)
    fun _ isOne => ?_
  · obtain rfl := Trial.eq_of_accepts_just isOther
    exact opensThird.refuses_token notThird.2
  · obtain rfl := Trial.eq_of_accepts_just isOne
    exact (opensSecond.refuses_token notSecond).or (opensThird.refuses_token notThird.1)

/-! ## Repetitions -/

/-- Items, and what goes on after them. Where an item can fail after it has read a token, nothing
that goes on accepts this token. -/
theorem Opens.repeated {item : Parser α} {after : List α → State} {least : Nat}
    {next : List α → Parser β} {post : β → Cursor → Prop}
    (opens : ∀ items, target.Opens (after items) item trial
      fun value => target.At (after (items ++ [value])) tried)
    (follows : ∀ items, least ≤ items.length →
      target.Follows (target.At (after items) (tried ++ [trial])) (next items) post)
    (refuses : ∀ token cursor after, trial.accepts token = true → cursor.head? = some token →
      item cursor = (none, after) → ∀ items, Refuses (next items) token)
    (waits : ∀ items, items.length < least → (after items).Waits (tried ++ [trial]))
    (items : List α) :
    target.Follows (target.At (after items) tried) (item.repeatedFrom least items >>= next)
      post := by
  intro cursor here
  -- The induction is on what is left to read; the items grow with what was read.
  induction left : cursor.rest.length using Nat.strongRecOn generalizing items cursor with
  | ind left inductionHypothesis =>
  subst left
  rcases (opens items).missing_or_ends here with
    ⟨last, fails, back⟩ | ⟨token, isHead, accepted, count, fewer, ends⟩
  · have ended : item.repeatedFrom least items cursor = _ := Parser.repeatedFrom_of_none fails
    by_cases enough : least ≤ items.length
    · rw [if_pos enough] at ended
      rw [Parser.bind_of_some ended]
      exact follows items enough _ back
    · rw [if_neg enough] at ended
      rw [Parser.bind_of_none ended]
      obtain ⟨answer, isHere⟩ := back.lost (waits items (Nat.lt_of_not_le enough))
      exact .failure answer (Nat.le_of_eq (congrArg List.length isHere))
  · generalize reads : item cursor = reply at ends
    cases ends with
    | @success value last reached shorter =>
        have progress := Nat.lt_of_le_of_lt shorter fewer
        rw [Parser.bind_apply, Parser.repeatedFrom_of_some reads progress, ← Parser.bind_apply]
        have ends := inductionHypothesis _ progress (items ++ [value]) last reached rfl
        exact ends.mono (Nat.le_of_lt progress)
    | @failure last answer further =>
        have ended : item.repeatedFrom least items cursor = _ := Parser.repeatedFrom_of_none reads
        have isFurther := Nat.lt_of_le_of_lt further fewer
        by_cases enough : least ≤ items.length
        · rw [if_pos enough] at ended
          rw [Parser.bind_of_some ended]
          have refuses := refuses token cursor last accepted isHead reads items
          obtain ⟨final, fails, same⟩ := refuses.fails isHead isFurther
          rw [fails]
          rw [← same] at answer isFurther
          exact .failure answer (Nat.le_of_lt isFurther)
        · rw [if_neg enough] at ended
          rw [Parser.bind_of_none ended]
          exact .failure answer (Nat.le_of_lt isFurther)

/-- Items with separators between them, and what goes on after them. -/
theorem Opens.separatedBy {γ : Type} {item : Parser α} {separator : Parser γ}
    {next : List α → Parser β} {middle : α → Cursor → Prop} {post : β → Cursor → Prop}
    (opens : target.Opens state item trial middle)
    (empty : target.Follows (target.At state (tried ++ [trial])) (next []) post)
    (more : ∀ first, target.Follows (middle first)
      ((separator.ignoreThen item).repeatedFrom 0 [first] >>= next) post)
    (refuses : ∀ token cursor after, trial.accepts token = true → cursor.head? = some token →
      item cursor = (none, after) → Refuses (next []) token) :
    target.Follows (target.At state tried) (item.separatedBy separator >>= next) post := by
  intro cursor here
  rcases opens.missing_or_ends here with
    ⟨last, fails, back⟩ | ⟨token, isHead, accepted, count, fewer, ends⟩
  · rw [Parser.bind_of_some (Parser.separatedBy_of_none fails)]
    exact empty _ back
  · generalize reads : item cursor = reply at ends
    cases ends with
    | @success first last reached shorter =>
        rw [Parser.bind_apply, Parser.separatedBy_of_some reads, ← Parser.bind_apply]
        exact (more first last reached).mono (Nat.le_trans shorter (Nat.le_of_lt fewer))
    | @failure last answer further =>
        have isFurther := Nat.lt_of_le_of_lt further fewer
        have refuses := refuses token cursor last accepted isHead reads
        obtain ⟨final, fails, same⟩ := refuses.fails isHead isFurther
        rw [Parser.bind_of_some (Parser.separatedBy_of_none reads), fails]
        rw [← same] at answer isFurther
        exact .failure answer (Nat.le_of_lt isFurther)

/-- A row of line ends, with the state in which the reader is after so many of them. -/
theorem follows_newlines {after : List Token → State} {least : Nat}
    (moves : ∀ ends, (after ends).step .newline = some (after (ends ++ [.newline])))
    (waits : ∀ ends, ends.length < least → (after ends).Waits [.just .newline])
    (ends : List Token) :
    target.Follows (target.At (after ends) [])
      ((Parser.just .newline).repeatedFrom least ends)
      fun ends cursor => least ≤ ends.length ∧ target.At (after ends) [.just .newline] cursor := by
  have opens (ends : List Token) :
      target.Opens (after ends) (.just .newline) (.just .newline)
        fun found => target.At (after (ends ++ [found])) [] := by
    refine opens_take (fun token found accepted => ?_) _
    obtain ⟨rfl, rfl⟩ : token = .newline ∧ token = found := by simpa using accepted
    exact moves ends
  rw [← bind_pure (Parser.repeatedFrom _ _ _)]
  refine Opens.repeated opens (fun _ enough => .pure fun _ here => ⟨enough, here⟩) ?_ waits ends
  -- One token is read or not, so no line end fails once it was accepted.
  intro token cursor last accepted isHead fails
  exact absurd fails (Parser.take_ne_none isHead accepted)

end Target

end PassScheduler
