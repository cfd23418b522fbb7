import PassScheduler.Proofs.Source.Rules

/-!
Contract: the reader follows every derivation.

Whatever a rule derives leads from the place before it to the place after it, with what the tokens
stand for added to what was read.

Owns: runs of the reader over some tokens, and the run over a whole program.

Does not own: that other tokens are refused.
-/

namespace PassScheduler.Grammar

namespace State

/-- A run over tokens, none of which is refused. -/
def Leads (state : State) (tokens : List Token) (final : State) : Prop :=
  tokens.foldlM State.step state = some final

variable {state middle final : State} {token : Token} {tokens more : List Token}

theorem Leads.nil : state.Leads [] state :=
  rfl

theorem Leads.append (first : state.Leads tokens middle) (second : middle.Leads more final) :
    state.Leads (tokens ++ more) final := by
  unfold Leads at first ⊢
  rw [List.foldlM_append, first]
  exact second

theorem leads_one (moved : state.step token = some final) : state.Leads [token] final := by
  simp [Leads, moved]

theorem leads_cons :
    state.Leads (token :: tokens) final ↔
      ∃ middle, state.step token = some middle ∧ middle.Leads tokens final := by
  simp only [Leads, List.foldlM_cons, Option.bind_eq_bind, Option.bind_eq_some_iff]

theorem Leads.cons (moved : state.step token = some middle) (rest : middle.Leads tokens final) :
    state.Leads (token :: tokens) final :=
  leads_cons.2 ⟨middle, moved, rest⟩

/-- Tokens lead to one state at most. -/
theorem Leads.unique {other : State} (left : state.Leads tokens final)
    (right : state.Leads tokens other) :
    final = other :=
  Option.some.inj (left.symm.trans right)

/-! ## Repetitions -/

theorem leads_replicate (stays : state.step .newline = some state) (count : Nat) :
    state.Leads (List.replicate count .newline) state := by
  induction count with
  | zero => exact .nil
  | succ count inductionHypothesis => exact .cons stays inductionHypothesis

theorem leads_lineEnds (stays : state.step .newline = some state) (ends : LineEnds 0 tokens) :
    state.Leads tokens state := by
  obtain ⟨count, _, rfl⟩ := ends
  exact leads_replicate stays count

/-- The first line end of a row may lead elsewhere than all others. -/
theorem leads_lineEnds_one (moved : state.step .newline = some final)
    (stays : final.step .newline = some final) (ends : LineEnds 1 tokens) :
    state.Leads tokens final := by
  obtain ⟨count, enough, rfl⟩ := ends
  obtain ⟨others, rfl⟩ : ∃ others, count = others + 1 := ⟨count - 1, by omega⟩
  exact .cons moved (leads_replicate stays others)

/-- Items that each lead on from where the items before them end. -/
theorem leads_many {α : Type} {rule : Rule α} {items : List α} (reached : List α → State)
    (leads : ∀ before tokens item, rule tokens item →
      (reached before).Leads tokens (reached (before ++ [item])))
    (derived : Many rule tokens items) :
    (reached []).Leads tokens (reached items) := by
  induction derived with
  | none => exact .nil
  | more _ last inductionHypothesis => exact inductionHypothesis.append (leads _ _ _ last)

end State

open State

variable {functions : List Function} {tokens : List Token}

/-! ## Lines -/

theorem InstRule.leads {inst : Inst} {block : OpenBlock} (derived : InstRule tokens inst) :
    Leads ⟨functions, .line block⟩ tokens ⟨functions, .lineBreak (block.push inst)⟩ := by
  cases derived with
  | const dest n => rfl
  | copy dest source => cases source <;> rfl
  | binary dest op lhs rhs => cases lhs <;> cases rhs <;> rfl

theorem TermRule.leads {term : Terminator} {block : OpenBlock} (derived : TermRule tokens term) :
    Leads ⟨functions, .line block⟩ tokens ⟨functions, .blockBreak (block.close term)⟩ := by
  cases derived with
  | ret result => cases result <;> rfl
  | jmp target => rfl
  | br thenLabel elseLabel condition => cases condition <;> rfl

theorem leads_lineBreak {block : OpenBlock} (ends : LineEnds 1 tokens) :
    Leads ⟨functions, .lineBreak block⟩ tokens ⟨functions, .line block⟩ :=
  leads_lineEnds_one rfl rfl ends

theorem leads_instLine {inst : Inst} {block : OpenBlock}
    (derived : Ended 1 InstRule tokens inst) :
    Leads ⟨functions, .line block⟩ tokens ⟨functions, .line (block.push inst)⟩ := by
  obtain ⟨spelled, ends⟩ := derived
  exact spelled.leads.append (leads_lineBreak ends)

theorem leads_termLine {term : Terminator} {block : OpenBlock}
    (derived : Ended 1 TermRule tokens term) :
    Leads ⟨functions, .line block⟩ tokens ⟨functions, .nextLabel (block.close term)⟩ := by
  obtain ⟨spelled, ends⟩ := derived
  exact spelled.leads.append (leads_lineEnds_one rfl rfl ends)

/-! ## Blocks and functions -/

/-- The place before the label of a block, of the first one or of another one. -/
def labelPlace (function : Function) : Place :=
  match function.blocks with
  | [] => .firstLabel function
  | _ :: _ => .nextLabel function

theorem labelPlace_of_ne_nil {function : Function} (blocks : function.blocks ≠ []) :
    labelPlace function = .nextLabel function := by
  unfold labelPlace
  split
  · contradiction
  · rfl

theorem labelPlace_step_newline (function : Function) :
    State.step ⟨functions, labelPlace function⟩ .newline =
      some ⟨functions, labelPlace function⟩ := by
  unfold labelPlace
  split <;> rfl

theorem labelPlace_step_ident (function : Function) (label : String) :
    State.step ⟨functions, labelPlace function⟩ (.ident label) =
      some ⟨functions, .labelColon function label⟩ := by
  unfold labelPlace
  split <;> rfl

theorem BlockRule.leads {block : Block} {name : String} {params : List ValueId}
    {before : List Block} (derived : BlockRule tokens block) :
    Leads ⟨functions, labelPlace ⟨name, params, before⟩⟩ tokens
      ⟨functions, labelPlace ⟨name, params, before ++ [block]⟩⟩ := by
  have isNext : labelPlace ⟨name, params, before ++ [block]⟩ =
      .nextLabel ⟨name, params, before ++ [block]⟩ :=
    labelPlace_of_ne_nil (by simp)
  rw [isNext]
  obtain ⟨label, ⟨ends, insts⟩, term⟩ := derived
  have lines := leads_many
    (fun insts => ⟨functions, .line ⟨⟨name, params, before⟩, label, insts⟩⟩)
    (fun _ _ _ line => leads_instLine line) insts
  have body := (leads_lineBreak ends).append (lines.append (leads_termLine term))
  rw [← List.append_assoc] at body
  exact .cons (labelPlace_step_ident _ label) (.cons rfl body)

theorem leads_blocks {name : String} {params : List ValueId} {blocks : List Block}
    (derived : Led 0 BlockRule tokens blocks) :
    Leads ⟨functions, labelPlace ⟨name, params, []⟩⟩ tokens
      ⟨functions, labelPlace ⟨name, params, blocks⟩⟩ := by
  obtain ⟨ends, items⟩ := derived
  refine (leads_lineEnds (labelPlace_step_newline _) ends).append ?_
  exact leads_many (fun before => ⟨functions, labelPlace ⟨name, params, before⟩⟩)
    (fun _ _ _ block => block.leads) items

theorem ValuesRule.leads {name : String} {ids : List ValueId} (derived : ValuesRule tokens ids) :
    Leads ⟨functions, .firstParameter name⟩ tokens ⟨functions, .afterParameter name ids⟩ := by
  induction derived with
  | first id => rfl
  | next id _ inductionHypothesis => exact inductionHypothesis.append rfl

theorem ParamsRule.leads {name : String} {ids : List ValueId} (derived : ParamsRule tokens ids) :
    Leads ⟨functions, .firstParameter name⟩ (tokens ++ [.rightParen])
      ⟨functions, .body ⟨name, ids, []⟩⟩ := by
  cases derived with
  | none => rfl
  | some values => exact values.leads.append rfl

theorem FunctionRule.leads {function : Function} (derived : FunctionRule tokens function) :
    Leads ⟨functions, .outside⟩ tokens ⟨functions ++ [function], .outside⟩ := by
  obtain @⟨inner, body, ids, items, name, params, blocks, someBlock⟩ := derived
  have afterBlocks : Leads ⟨functions, .firstLabel ⟨name, ids, []⟩⟩ body
      ⟨functions, .nextLabel ⟨name, ids, items⟩⟩ := by
    rw [← labelPlace_of_ne_nil someBlock]
    exact leads_blocks blocks
  rw [List.append_cons inner]
  exact .cons rfl (.cons rfl (.cons rfl
    (params.leads.append (.cons rfl (afterBlocks.append (leads_one rfl))))))

theorem ModuleRule.leads (derived : ModuleRule tokens functions) :
    State.start.Leads tokens ⟨functions, .outside⟩ := by
  obtain ⟨ends, items⟩ := derived
  have beforeAll : State.start.Leads _ State.start := leads_lineEnds rfl ends
  refine beforeAll.append (leads_many (fun functions => ⟨functions, .outside⟩) ?_ items)
  rintro before _ function ⟨derived, ends⟩
  exact derived.leads.append (leads_lineEnds rfl ends)

end PassScheduler.Grammar
