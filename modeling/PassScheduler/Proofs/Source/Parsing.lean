import PassScheduler.Proofs.Source.Agreement
import PassScheduler.Proofs.Source.Lexing
import PassScheduler.Proofs.Source.Recognition

/-!
Contract: which source texts have functions, and what is said of all others.

Owns: that a text has functions iff all of it is tokens and the rules derive these, and that what
is wrong with any other text is said in order, its pieces first and its tokens last.

Does not own: which token is blamed.
-/

namespace PassScheduler.Source

open Grammar (ModuleRule State leads_iff_moduleRule)

/-- What is wrong with a text. -/
def diagnostics (source : String) : List Diagnostic :=
  match parse source with
  | .ok _ => []
  | .error problems => problems

/-- What is wrong with the tokens of a text. -/
def syntaxProblems (source : String) : List Diagnostic :=
  match readTokens source with
  | .ok _ => []
  | .error mismatch => [mismatch.diagnostic]

variable {source : String} {functions : List Function}

theorem lexicalProblems_eq_nil : lexicalProblems source = [] ↔ Lexer.unexpected source = [] :=
  List.map_eq_nil_iff

theorem readTokens_eq_ok :
    readTokens source = .ok functions ↔
      ModuleRule ((Lexer.tokens source).map Prod.fst) functions := by
  rw [readTokens_eq]
  exact State.read_eq_ok.trans leads_iff_moduleRule

theorem parse_eq_ok :
    parse source = .ok functions ↔
      lexicalProblems source = [] ∧ readTokens source = .ok functions := by
  unfold parse
  cases lexicalProblems source <;> cases readTokens source <;> simp

theorem diagnostics_eq (source : String) :
    diagnostics source = lexicalProblems source ++ syntaxProblems source := by
  unfold diagnostics parse syntaxProblems
  cases lexicalProblems source <;> cases readTokens source <;> simp

theorem diagnostics_eq_nil :
    diagnostics source = [] ↔ ∃ functions, parse source = .ok functions := by
  unfold diagnostics parse
  cases lexicalProblems source <;> cases readTokens source <;> simp

theorem syntaxProblems_eq_nil :
    syntaxProblems source = [] ↔
      ∃ functions, ModuleRule ((Lexer.tokens source).map Prod.fst) functions := by
  simp only [← readTokens_eq_ok]
  unfold syntaxProblems
  cases readTokens source <;> simp

/-- Problems of pieces stand in the order of the text. -/
theorem pairwise_lexicalProblems (source : String) :
    (lexicalProblems source).Pairwise fun left right => left.span.stop ≤ right.span.start :=
  List.pairwise_map.2 (Lexer.pairwise_unexpected source)

theorem code_of_lexicalProblems {problem : Diagnostic} (mem : problem ∈ lexicalProblems source) :
    problem.code = some "E0001" := by
  obtain ⟨_, _, rfl⟩ := List.mem_map.1 mem
  rfl

theorem span_lexicalProblems (source : String) :
    (lexicalProblems source).map Diagnostic.span = (Lexer.unexpected source).map Prod.snd :=
  List.map_map

theorem code_of_syntaxProblems {problem : Diagnostic} (mem : problem ∈ syntaxProblems source) :
    problem.code = some "E0002" := by
  unfold syntaxProblems at mem
  split at mem
  · cases mem
  · obtain rfl := List.mem_singleton.1 mem
    rfl

theorem length_syntaxProblems_le (source : String) : (syntaxProblems source).length ≤ 1 := by
  unfold syntaxProblems
  split <;> simp

/-- A text has functions iff every piece of it is read and the rules derive its tokens for them;
the names among the tokens are those that the text has at their spans, and no tokens are derived
for two programs. A text has functions iff there is nothing wrong with it; what is wrong are first
the pieces that are no token, in the order of the text, and then at most one token or the end,
where the tokens make no program. -/
theorem parse_iff_moduleRule (source : String) :
    (∀ functions, parse source = .ok functions ↔
        Lexer.unexpected source = [] ∧
          ModuleRule ((Lexer.tokens source).map Prod.fst) functions) ∧
      (∀ name span, (.ident name, span) ∈ Lexer.tokens source →
        span.Cuts source.toList name.toList) ∧
      (∀ tokens left right, ModuleRule tokens left → ModuleRule tokens right → left = right) ∧
      ((∃ functions, parse source = .ok functions) ↔ diagnostics source = []) ∧
      ∃ ofPieces ofTokens, diagnostics source = ofPieces ++ ofTokens ∧
        ofPieces.map Diagnostic.span = (Lexer.unexpected source).map Prod.snd ∧
        ofPieces.Pairwise (fun left right => left.span.stop ≤ right.span.start) ∧
        (∀ problem ∈ ofPieces, problem.code = some "E0001") ∧
        ofTokens.length ≤ 1 ∧
        (∀ problem ∈ ofTokens, problem.code = some "E0002") ∧
        (ofTokens = [] ↔
          ∃ functions, ModuleRule ((Lexer.tokens source).map Prod.fst) functions) := by
  refine ⟨?_, fun _ _ => Lexer.cuts_ident, fun _ _ _ => ModuleRule.unique,
    diagnostics_eq_nil.symm, lexicalProblems source, syntaxProblems source, diagnostics_eq source,
    span_lexicalProblems source, pairwise_lexicalProblems source,
    fun _ => code_of_lexicalProblems, length_syntaxProblems_le source,
    fun _ => code_of_syntaxProblems, syntaxProblems_eq_nil⟩
  intro functions
  rw [parse_eq_ok, lexicalProblems_eq_nil, readTokens_eq_ok]

/-- The text of a function that returns its argument. -/
def identityText : String :=
  "fn f(%0) \x7b\nentry:\n  ret %0\n\x7d\n"

theorem parse_iff_moduleRule_identity :
    parse identityText = .ok [⟨"f", [⟨0⟩], [⟨"entry", [], .ret (.value ⟨0⟩)⟩]⟩] ∧
      ModuleRule ((Lexer.tokens identityText).map Prod.fst)
        [⟨"f", [⟨0⟩], [⟨"entry", [], .ret (.value ⟨0⟩)⟩]⟩] ∧
      (.ident "entry", ⟨11, 16⟩) ∈ Lexer.tokens identityText ∧
      Span.Cuts ⟨11, 16⟩ identityText.toList "entry".toList ∧ diagnostics identityText = [] := by
  have parsed : parse identityText =
      .ok [⟨"f", [⟨0⟩], [⟨"entry", [], .ret (.value ⟨0⟩)⟩]⟩] := by
    decide +kernel
  have named : (.ident "entry", ⟨11, 16⟩) ∈ Lexer.tokens identityText := by
    have eighth : (Lexer.tokens identityText)[7]? = some (.ident "entry", ⟨11, 16⟩) := by
      decide +kernel
    exact List.mem_of_getElem? eighth
  obtain ⟨functions, cuts, _, clean, _⟩ := parse_iff_moduleRule identityText
  exact ⟨parsed, ((functions _).1 parsed).2, named, cuts _ _ named, clean.1 ⟨_, parsed⟩⟩

end PassScheduler.Source
