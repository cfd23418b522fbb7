import PassScheduler.Proofs.Source.Recognition
import PassScheduler.Proofs.Source.Spelling

/-!
Contract: the text of a program is a derivation of it.

Every item is written so that it reads as tokens which its rule derives, in front of any text that
does not go on with a character of some class: words and numbers must end, and a line must not be
followed by an empty one.

Owns:
- `Spells`, which relates a text to the item that a rule derives from its tokens;
- that the texts of operands, instructions, terminators, blocks, functions and programs spell them,
  if their names are names.

Does not own: which texts have other tokens.
-/

namespace PassScheduler

open Grammar Lexer

/-- A text reads as tokens that a rule derives for an item, in front of any text that avoids a
class. -/
def Spells {α : Type} (rule : Rule α) (ends : Char → Bool) (text : String) (item : α) : Prop :=
  ∃ tokens, rule tokens item ∧ ∀ rest, Avoids ends rest →
    readings (text.toList ++ rest) = tokens.map .token ++ readings rest

/-- Whether a character is a line end. -/
abbrev isLineEnd (c : Char) : Bool := c = '\n'

section Words

variable {rest : List Char}

theorem Lexer.Avoids.isDigit (ends : Avoids isWordPart rest) : Avoids Char.isDigit rest := by
  intro c isFirst isDigit
  exact ends c isFirst (by simp [isWordPart, Char.isAlphanum, isDigit])

theorem avoids_cons {ends : Char → Bool} {c : Char} (isOther : ends c = false) :
    Avoids ends (c :: rest) := by
  rintro _ ⟨⟩
  simp [isOther]

theorem Operand.readings_text (operand : Operand) (ends : Avoids isWordPart rest) :
    readings (operand.text.toList ++ rest) = .token operand.token :: readings rest := by
  cases operand with
  | value id => exact readings_value id ends.isDigit
  | imm n => exact readings_int n ends.isDigit

theorem readings_name {name : String} (spelled : isName name) (ends : Avoids isWordPart rest) :
    readings (name.toList ++ rest) = .token (.ident name) :: readings rest := by
  obtain ⟨isWord, isIdent⟩ := isName_iff.1 spelled
  rw [readings_word isWord ends, isIdent]

/-- A word and a blank. -/
theorem readings_word_blank {word : String} (spelled : isWord word) :
    readings (word.toList ++ ' ' :: rest) = .token (.ofWord word) :: readings rest := by
  rw [readings_word spelled (avoids_cons rfl), readings_blank]

theorem readings_comma_blank :
    readings (',' :: ' ' :: rest) = .token .comma :: readings rest := by
  rw [readings_symbol rfl, readings_blank]

end Words

theorem BinOp.isWord_mnemonic (op : BinOp) : isWord op.mnemonic := by
  cases op <;> rfl

theorem Inst.spells (inst : Inst) : Spells InstRule isWordPart inst.text inst := by
  obtain ⟨dest, op⟩ := inst
  have start : ∀ rest, readings (dest.text.toList ++ ' ' :: '=' :: ' ' :: rest) =
      .token (.value dest) :: .token .equals :: readings rest := by
    intro rest
    rw [readings_value dest (avoids_cons rfl), readings_blank, readings_symbol rfl, readings_blank]
  cases op with
  | const n =>
      refine ⟨_, .const dest n, fun rest ends => ?_⟩
      have isText : (Inst.text ⟨dest, .const n⟩).toList ++ rest = dest.text.toList ++
          ' ' :: '=' :: ' ' :: ("const".toList ++ ' ' :: (n.toInt.repr.toList ++ rest)) := by
        simp [Inst.text, Op.text]
      rw [isText, start, readings_word_blank rfl, readings_int n ends.isDigit]
      rfl
  | copy source =>
      refine ⟨_, .copy dest (operandRule_token source), fun rest ends => ?_⟩
      have isText : (Inst.text ⟨dest, .copy source⟩).toList ++ rest = dest.text.toList ++
          ' ' :: '=' :: ' ' :: ("copy".toList ++ ' ' :: (source.text.toList ++ rest)) := by
        simp [Inst.text, Op.text]
      rw [isText, start, readings_word_blank rfl, source.readings_text ends]
      rfl
  | binary op lhs rhs =>
      refine ⟨_, .binary dest op (operandRule_token lhs) (operandRule_token rhs), ?_⟩
      intro rest ends
      have isText : (Inst.text ⟨dest, .binary op lhs rhs⟩).toList ++ rest = dest.text.toList ++
          ' ' :: '=' :: ' ' :: (op.mnemonic.toList ++ ' ' :: (lhs.text.toList ++
            ',' :: ' ' :: (rhs.text.toList ++ rest))) := by
        simp [Inst.text, Op.text]
      rw [isText, start, readings_word_blank op.isWord_mnemonic,
        lhs.readings_text (avoids_cons rfl), readings_comma_blank, rhs.readings_text ends,
        Token.ofWord_mnemonic]
      rfl

theorem Terminator.spells {term : Terminator} (named : ∀ target ∈ term.successors, isName target) :
    Spells TermRule isWordPart term.text term := by
  cases term with
  | ret result =>
      refine ⟨_, .ret (operandRule_token result), fun rest ends => ?_⟩
      have isText : (Terminator.ret result).text.toList ++ rest =
          "ret".toList ++ ' ' :: (result.text.toList ++ rest) := by
        simp [Terminator.text]
      rw [isText, readings_word_blank rfl, result.readings_text ends]
      rfl
  | jmp target =>
      refine ⟨_, .jmp target, fun rest ends => ?_⟩
      have isText : (Terminator.jmp target).text.toList ++ rest =
          "jmp".toList ++ ' ' :: (target.toList ++ rest) := by
        simp [Terminator.text]
      rw [isText, readings_word_blank rfl, readings_name (named target (by simp [successors])) ends]
      rfl
  | br condition thenLabel elseLabel =>
      refine ⟨_, .br thenLabel elseLabel (operandRule_token condition), fun rest ends => ?_⟩
      have isText : (Terminator.br condition thenLabel elseLabel).text.toList ++ rest =
          "br".toList ++ ' ' :: (condition.text.toList ++ ',' :: ' ' :: (thenLabel.toList ++
            ',' :: ' ' :: (elseLabel.toList ++ rest))) := by
        simp [Terminator.text]
      rw [isText, readings_word_blank rfl, condition.readings_text (avoids_cons rfl),
        readings_comma_blank,
        readings_name (named thenLabel (by simp [successors])) (avoids_cons rfl),
        readings_comma_blank, readings_name (named elseLabel (by simp [successors])) ends]
      rfl

/-! ## Lines and rows of items -/

section Rows

variable {α : Type} {rule : Rule α}

theorem Spells.line {text : String} {item : α} (spells : Spells rule isWordPart text item) :
    Spells (Ended 1 rule) isLineEnd ("  " ++ text ++ "\n") item := by
  obtain ⟨tokens, derives, reads⟩ := spells
  refine ⟨tokens ++ [.newline], .ended derives .one, fun rest ends => ?_⟩
  have isText : ("  " ++ text ++ "\n").toList ++ rest =
      ' ' :: ' ' :: (text.toList ++ '\n' :: rest) := by
    simp
  rw [isText, readings_blank, readings_blank, reads _ (avoids_cons rfl), readings_newline ends]
  simp

/-- Items that follow each other are spelled one by one, if none begins with a character that the
one before must not be followed by. -/
theorem spells_many {ends : Char → Bool} {text : α → String} {items : List α}
    (starts : ∀ item ∈ items, ∀ rest, Avoids ends ((text item).toList ++ rest))
    (spells : ∀ item ∈ items, Spells rule ends (text item) item) :
    Spells (Many rule) ends (String.join (items.map text)) items := by
  induction items using List.reverseRecOn with
  | nil => exact ⟨[], .none, fun rest _ => by simp⟩
  | append_singleton before last inductionHypothesis =>
      have isLast : last ∈ before ++ [last] := by simp
      obtain ⟨first, derivesBefore, readsBefore⟩ := inductionHypothesis
        (fun item mem => starts item (List.mem_append_left _ mem))
        (fun item mem => spells item (List.mem_append_left _ mem))
      obtain ⟨second, derivesLast, readsLast⟩ := spells last isLast
      refine ⟨first ++ second, derivesBefore.more derivesLast, fun rest ends => ?_⟩
      have isText : (String.join ((before ++ [last]).map text)).toList ++ rest =
          (String.join (before.map text)).toList ++ ((text last).toList ++ rest) := by
        simp [String.toList_join]
      rw [isText, readsBefore _ (starts last isLast rest), readsLast rest ends]
      simp

end Rows

/-! ## Blocks -/

/-- The text of a name begins a word. -/
theorem avoids_name {name : String} (spelled : isName name) (rest : List Char) :
    Avoids isLineEnd (name.toList ++ rest) := by
  have asWord := (isName_iff.1 spelled).1
  unfold isWord at asWord
  split at asWord
  · cases asWord
  · rename_i first more isText
    rw [isText]
    rintro _ ⟨⟩ isEnd
    obtain rfl : first = '\n' := by simpa using isEnd
    exact absurd asWord (by simp [show isWordStart '\n' = false from rfl])

theorem Block.starts {block : Block} (named : isName block.label) (rest : List Char) :
    Avoids isLineEnd (block.text.toList ++ rest) := by
  have isText : block.text.toList ++ rest = block.label.toList ++
      (":\n" ++ String.join (block.insts.map fun inst => "  " ++ inst.text ++ "\n") ++
        "  " ++ block.term.text ++ "\n").toList ++ rest := by
    simp [Block.text]
  rw [isText, List.append_assoc]
  exact avoids_name named _

theorem Block.spells {block : Block} (named : isName block.label)
    (targets : ∀ target ∈ block.term.successors, isName target) :
    Spells BlockRule isLineEnd block.text block := by
  let line (inst : Inst) : String := "  " ++ inst.text ++ "\n"
  obtain ⟨body, derivesBody, readsBody⟩ : Spells (Many (Ended 1 InstRule)) isLineEnd
      (String.join (block.insts.map line)) block.insts := by
    refine spells_many (fun inst _ rest => ?_) (fun inst _ => inst.spells.line)
    rw [show (line inst).toList ++ rest = ' ' :: (' ' :: (inst.text.toList ++ '\n' :: rest)) by
      simp [line]]
    exact avoids_cons rfl
  obtain ⟨last, derivesTerm, readsTerm⟩ := (Terminator.spells targets).line
  have derives : BlockRule (.ident block.label :: .colon :: ([.newline] ++ body ++ last)) block :=
    .block block.label (.led .one derivesBody) derivesTerm
  refine ⟨_, derives, fun rest ends => ?_⟩
  have isText : block.text.toList ++ rest = block.label.toList ++ ':' :: '\n' ::
      ((String.join (block.insts.map line)).toList ++
        (("  " ++ block.term.text ++ "\n").toList ++ rest)) := by
    simp [Block.text, line]
  have termStarts : Avoids isLineEnd (("  " ++ block.term.text ++ "\n").toList ++ rest) := by
    simpa using avoids_cons rfl
  have bodyStarts : Avoids isLineEnd ((String.join (block.insts.map line)).toList ++
      (("  " ++ block.term.text ++ "\n").toList ++ rest)) := by
    cases block.insts with
    | nil => simpa using termStarts
    | cons inst more => simpa [line] using avoids_cons rfl
  rw [isText, readings_name named (avoids_cons rfl), readings_symbol rfl,
    readings_newline bodyStarts, readsBody _ termStarts, readsTerm rest ends]
  simp

/-! ## Functions and programs -/

theorem lineEnds_single : LineEnds 0 [.newline] :=
  LineEnds.nil.newline

/-- A row of texts with separators between them is the row of all but the last of them, each with
its separator, and then the last. -/
theorem intercalate_concat (separator : String) (before : List String) (last : String) :
    String.intercalate separator (before ++ [last]) =
      String.join (before.map (· ++ separator)) ++ last := by
  induction before with
  | nil => simp
  | cons first more inductionHypothesis =>
      cases more with
      | nil => simp
      | cons second others =>
          rw [List.cons_append, List.cons_append, String.intercalate_cons_cons,
            ← List.cons_append, inductionHypothesis]
          simp [String.append_assoc]

theorem spells_values (before : List ValueId) (last : ValueId) :
    Spells ValuesRule Char.isDigit
      (String.intercalate ", " ((before ++ [last]).map ValueId.text)) (before ++ [last]) := by
  rw [List.map_append, List.map_singleton, intercalate_concat]
  induction before using List.reverseRecOn generalizing last with
  | nil =>
      refine ⟨_, .first last, fun rest ends => ?_⟩
      simpa using readings_value last ends
  | append_singleton before second inductionHypothesis =>
      obtain ⟨tokens, derives, reads⟩ := inductionHypothesis second
      refine ⟨_, .next last derives, fun rest ends => ?_⟩
      have isText : (String.join (((before ++ [second]).map ValueId.text).map (· ++ ", ")) ++
            last.text).toList ++ rest =
          (String.join ((before.map ValueId.text).map (· ++ ", ")) ++ second.text).toList ++
            ',' :: ' ' :: (last.text.toList ++ rest) := by
        simp [String.toList_join]
      rw [isText, reads _ (avoids_cons rfl), readings_comma_blank, readings_value last ends]
      simp

theorem spells_params (params : List ValueId) :
    Spells ParamsRule Char.isDigit (String.intercalate ", " (params.map ValueId.text)) params := by
  rcases List.eq_nil_or_concat params with rfl | ⟨before, last, rfl⟩
  · exact ⟨[], .none, fun rest _ => by simp⟩
  · rw [List.concat_eq_append]
    obtain ⟨tokens, derives, reads⟩ := spells_values before last
    exact ⟨tokens, .some derives, reads⟩

/-- What a function must be like for its text to stand for it: it has a block, and all that it
calls by name is called by names. -/
structure Function.Writable (function : Function) : Prop where
  hasBlock : function.blocks ≠ []
  name : isName function.name
  labels : ∀ block ∈ function.blocks, isName block.label
  targets : ∀ block ∈ function.blocks, ∀ target ∈ block.term.successors, isName target

namespace Function.Writable

variable {function : Function}

/-- The text of a function spells it up to its closing brace, which anything may follow. -/
theorem spells_closed (writable : function.Writable) :
    ∃ tokens, FunctionRule tokens function ∧ ∀ rest,
      readings (function.text.toList ++ rest) = tokens.map .token ++ readings ('\n' :: rest) := by
  obtain ⟨inner, derivesParams, readsParams⟩ := spells_params function.params
  obtain ⟨body, derivesBlocks, readsBlocks⟩ :=
    spells_many (fun block mem => Block.starts (writable.labels block mem))
      (fun block mem => Block.spells (writable.labels block mem) (writable.targets block mem))
  refine ⟨_, .function function.name derivesParams (.led lineEnds_single derivesBlocks)
    writable.hasBlock, fun rest => ?_⟩
  have isText : function.text.toList ++ rest = "fn".toList ++ ' ' :: (function.name.toList ++
      '(' :: ((String.intercalate ", " (function.params.map ValueId.text)).toList ++
        ')' :: ' ' :: '\x7b' :: '\n' :: ((String.join (function.blocks.map Block.text)).toList ++
          '\x7d' :: '\n' :: rest))) := by
    simp [Function.text]
  have blocksStart : Avoids isLineEnd
      ((String.join (function.blocks.map Block.text)).toList ++ '\x7d' :: '\n' :: rest) := by
    cases blocks : function.blocks with
    | nil => exact avoids_cons rfl
    | cons first more =>
        rw [List.map_cons, String.join_cons, String.toList_append, List.append_assoc]
        exact Block.starts (writable.labels first (by simp [blocks])) _
  rw [isText, readings_word_blank rfl, readings_name writable.name (avoids_cons rfl),
    readings_symbol rfl, readsParams _ (avoids_cons rfl), readings_symbol rfl, readings_blank,
    readings_symbol rfl, readings_newline blocksStart, readsBlocks _ (avoids_cons rfl),
    readings_symbol rfl]
  simp [Token.ofWord]

theorem spells (writable : function.Writable) :
    Spells (Ended 0 FunctionRule) isLineEnd function.text function := by
  obtain ⟨tokens, derives, reads⟩ := writable.spells_closed
  refine ⟨tokens ++ [.newline], .ended derives lineEnds_single, fun rest ends => ?_⟩
  rw [reads, readings_newline ends]
  simp

/-- An empty line after a function leaves no trace. -/
theorem spells_emptyLine (writable : function.Writable) :
    Spells (Ended 0 FunctionRule) isLineEnd (function.text ++ "\n") function := by
  obtain ⟨tokens, derives, reads⟩ := writable.spells_closed
  refine ⟨tokens ++ [.newline], .ended derives lineEnds_single, fun rest ends => ?_⟩
  have isText : (function.text ++ "\n").toList ++ rest = function.text.toList ++ '\n' :: rest := by
    simp
  rw [isText, reads, readings_newline_newline, readings_newline ends]
  simp

end Function.Writable

theorem Function.starts (function : Function) (rest : List Char) :
    Avoids isLineEnd (function.text.toList ++ rest) := by
  simp only [Function.text, String.toList_append, List.append_assoc]
  exact avoids_cons rfl

/-- The text of a program whose functions can be written spells them. -/
theorem Program.spells {program : Program}
    (writable : ∀ function ∈ program.functions, function.Writable) :
    Spells ModuleRule isLineEnd program.text program.functions := by
  obtain ⟨functions, results⟩ := program
  rcases List.eq_nil_or_concat functions with rfl | ⟨before, last, rfl⟩
  · have derives : ModuleRule ([] ++ []) [] := .led .nil .none
    exact ⟨_, derives, fun rest _ => by simp [Program.text]⟩
  · rw [List.concat_eq_append] at *
    obtain ⟨first, derivesBefore, readsBefore⟩ : Spells (Many (Ended 0 FunctionRule)) isLineEnd
        (String.join (before.map fun function => function.text ++ "\n")) before := by
      refine spells_many (fun function _ rest => ?_) (fun function mem => ?_)
      · rw [String.toList_append, List.append_assoc]
        exact function.starts _
      · exact (writable function (List.mem_append_left _ mem)).spells_emptyLine
    obtain ⟨second, derivesLast, readsLast⟩ := (writable last (by simp)).spells
    have derives : ModuleRule ([] ++ (first ++ second)) (before ++ [last]) :=
      .led .nil (derivesBefore.more derivesLast)
    refine ⟨_, derives, fun rest ends => ?_⟩
    have isText : (Program.mk (before ++ [last]) results).text.toList ++ rest =
        (String.join (before.map fun function => function.text ++ "\n")).toList ++
          (last.text.toList ++ rest) := by
      simp [Program.text, intercalate_concat, Function.comp_def]
    rw [isText, readsBefore _ (last.starts rest), readsLast rest ends]
    simp

end PassScheduler
