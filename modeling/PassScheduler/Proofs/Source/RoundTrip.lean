import PassScheduler.Proofs.Source.Parsing
import PassScheduler.Proofs.Source.Writing

/-!
Contract: which programs are read back from their text.

Nothing but the calling by name can go wrong: numbers, values and the layout are always read back.
A program with a block in each function is read back iff each of its names is one, and what a
reader returns has only names of the text, so it is always read back.

Owns:
- that the rules derive only functions that can be written, from tokens with names only;
- the programs that are read back from their text.

Does not own: which texts are programs.
-/

namespace PassScheduler

open Grammar Lexer

/-! ## The functions that the rules derive -/

/-- The identifiers among the tokens are names. -/
def Named (tokens : List Token) : Prop :=
  ∀ name, .ident name ∈ tokens → isName name

section Named

variable {α : Type} {rule : Rule α} {good : α → Prop} {least : Nat} {before after : List Token}

@[simp] theorem named_append : Named (before ++ after) ↔ Named before ∧ Named after := by
  simp only [Named, List.mem_append]
  grind

theorem Grammar.Many.all (each : ∀ tokens item, rule tokens item → Named tokens → good item)
    {tokens : List Token} {items : List α} (derives : Many rule tokens items)
    (named : Named tokens) :
    ∀ item ∈ items, good item := by
  induction derives with
  | none => simp
  | more _ last inductionHypothesis =>
      obtain ⟨namedBefore, namedLast⟩ := named_append.1 named
      intro item mem
      rcases List.mem_append.1 mem with mem | mem
      · exact inductionHypothesis namedBefore item mem
      · obtain rfl := List.mem_singleton.1 mem
        exact each _ _ last namedLast

theorem Grammar.Led.all (each : ∀ tokens item, rule tokens item → Named tokens → good item)
    {tokens : List Token} {items : List α} (derives : Led least rule tokens items)
    (named : Named tokens) :
    ∀ item ∈ items, good item := by
  obtain ⟨_, items⟩ := derives
  exact items.all each (named_append.1 named).2

theorem Grammar.Ended.one (each : ∀ tokens item, rule tokens item → Named tokens → good item)
    (tokens : List Token) (item : α) (derives : Ended least rule tokens item)
    (named : Named tokens) :
    good item := by
  obtain ⟨item, _⟩ := derives
  exact each _ _ item (named_append.1 named).1

end Named

theorem Grammar.TermRule.isName_target (tokens : List Token) (term : Terminator)
    (derives : TermRule tokens term) (named : Named tokens) :
    ∀ target ∈ term.successors, isName target := by
  cases derives with
  | ret => simp [Terminator.successors]
  | jmp target => simpa [Terminator.successors] using named target (by simp)
  | br thenLabel elseLabel =>
      simpa [Terminator.successors] using
        ⟨named thenLabel (by simp), named elseLabel (by simp)⟩

theorem Grammar.BlockRule.isName_label (tokens : List Token) (block : Block)
    (derives : BlockRule tokens block) (named : Named tokens) :
    isName block.label ∧ ∀ target ∈ block.term.successors, isName target := by
  obtain ⟨label, _, term⟩ := derives
  refine ⟨named label (by simp), term.one TermRule.isName_target _ _ ?_⟩
  exact fun name mem => named name (by simp [mem])

theorem Grammar.FunctionRule.writable (tokens : List Token) (function : Function)
    (derives : FunctionRule tokens function) (named : Named tokens) :
    function.Writable := by
  obtain ⟨name, _, blocks, hasBlock⟩ := derives
  have namedBlocks := blocks.all BlockRule.isName_label fun name mem => named name (by simp [mem])
  exact {
    hasBlock
    name := named name (by simp)
    labels := fun block mem => (namedBlocks block mem).1
    targets := fun block mem => (namedBlocks block mem).2 }

namespace Source

theorem writable_of_parse {source : String} {functions : List Function}
    (parsed : parse source = .ok functions) :
    ∀ function ∈ functions, function.Writable := by
  rw [parse_eq_ok, readTokens_eq_ok] at parsed
  exact parsed.2.all (Ended.one FunctionRule.writable) fun _ => isName_of_tokens

theorem parse_text_of_writable (program : Program)
    (writable : ∀ function ∈ program.functions, function.Writable) :
    parse program.text = .ok program.functions := by
  obtain ⟨row, derives, reads⟩ := program.spells writable
  have spelled : readings program.text.toList = row.map .token := by
    simpa [readings, pieces] using reads [] (by simp [Avoids])
  obtain ⟨noneUnexpected, isRow⟩ := spelled_of_readings spelled
  rw [parse_eq_ok, lexicalProblems_eq_nil, readTokens_eq_ok, isRow]
  exact ⟨noneUnexpected, derives⟩

/-- A program is read back from its text iff each of its functions has a block and calls by names
whatever it calls. What a text is read as is read back. -/
theorem parse_text_iff_writable :
    (∀ program : Program, parse program.text = .ok program.functions ↔
        ∀ function ∈ program.functions, function.Writable) ∧
      ∀ source functions, parse source = .ok functions →
        parse (Program.ofFunctions functions).text = .ok functions := by
  refine ⟨fun program => ⟨writable_of_parse, parse_text_of_writable program⟩, ?_⟩
  intro source functions parsed
  exact parse_text_of_writable (.ofFunctions functions) (writable_of_parse parsed)

/-- Two functions, with the least integer, the greatest value number and names that are almost
reserved. -/
def farEnds : Program :=
  .ofFunctions [
    ⟨"main_0", [⟨0⟩, ⟨4294967295⟩], [
      ⟨"fn.", [⟨⟨1⟩, .const Int64.minValue⟩, ⟨⟨2⟩, .binary .lt (.value ⟨1⟩) (.imm (-1))⟩],
        .br (.value ⟨2⟩) "fn." "Ret"⟩,
      ⟨"Ret", [], .jmp "_"⟩,
      ⟨"_", [], .ret (.value ⟨4294967295⟩)⟩]⟩,
    ⟨"g", [], [⟨"a", [⟨⟨7⟩, .copy (.imm 7)⟩], .ret (.value ⟨7⟩)⟩]⟩]

/-- A jump to a block whose label is a keyword. -/
def jumpToRet : Program :=
  .ofFunctions [⟨"f", [], [⟨"entry", [], .jmp "ret"⟩]⟩]

theorem parse_text_iff_writable_farEnds :
    parse farEnds.text = .ok farEnds.functions ∧
      parse jumpToRet.text ≠ .ok jumpToRet.functions ∧
      parse (Program.ofFunctions [⟨"f", [⟨0⟩], [⟨"entry", [], .ret (.value ⟨0⟩)⟩]⟩]).text =
        .ok [⟨"f", [⟨0⟩], [⟨"entry", [], .ret (.value ⟨0⟩)⟩]⟩] := by
  refine ⟨(parse_text_iff_writable.1 farEnds).2 ?_, fun parsed => ?_,
    parse_text_iff_writable.2 identityText _ (by decide +kernel)⟩
  · intro function mem
    constructor <;> revert function <;> decide
  · obtain ⟨_, _, _, targets⟩ := (parse_text_iff_writable.1 jumpToRet).1 parsed _ (.head _)
    exact absurd (targets _ (.head _) "ret" (.head _)) (by decide)

end Source

end PassScheduler
