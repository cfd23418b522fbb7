import PassScheduler.Proofs.Source.Reading
import PassScheduler.Proofs.Source.Tracing
import PassScheduler.Source.Parser

/-!
Contract: the parser of programs and the reader that never goes back say the same of every input.

The token with which a part of a program begins tells which part it is. So wherever the parser goes
back, it does so without having read anything, or it has failed for good.

Owns:
- which tokens are looked for at each place, in order, and that the reader waits for no others;
- that the parser of each rule keeps up with the reader, and that whole inputs get one answer.

Does not own: which inputs are programs.
-/

namespace PassScheduler

open Grammar

namespace Trial

def value : Trial := .of Token.value? .somethingElse

def int : Trial := .of Token.int? .somethingElse

def mnemonic : Trial := .of Token.mnemonic? .somethingElse

def ident : Trial := .of Token.ident? (.kind .ident)

end Trial

namespace Grammar

/-! ## What is looked for -/

/-- The tokens that are looked for at a place inside an instruction. -/
def InstPlace.trials : InstPlace → List Trial
  | .equals _ => [.just .equals]
  | .operation _ => [.just .const, .just .copy, .mnemonic]
  | .const _ => [.int]
  | .copy _ | .binary _ _ | .binaryRhs _ _ _ => [.value, .int]
  | .binaryComma _ _ _ => [.just .comma]

/-- The tokens that are looked for at a place inside a terminator. -/
def TermPlace.trials : TermPlace → List Trial
  | .ret | .br => [.value, .int]
  | .jmp | .brThen _ | .brElse _ _ => [.ident]
  | .brComma _ | .brThenComma _ _ => [.just .comma]

/-- The tokens that are looked for at a place. Outside of functions the input may end as well. -/
def Place.trials : Place → List Trial
  | .outside => [.just .newline, .just .fn]
  | .functionName => [.ident]
  | .parameterList _ => [.just .leftParen]
  | .firstParameter _ => [.value, .just .rightParen]
  | .afterParameter _ _ => [.just .comma, .just .rightParen]
  | .nextParameter _ _ => [.value]
  | .body _ => [.just .leftBrace]
  | .firstLabel _ => [.just .newline, .ident]
  | .labelColon _ _ => [.just .colon]
  | .lineBreak _ | .blockBreak _ => [.just .newline]
  | .line _ => [.just .newline, .value, .just .ret, .just .jmp, .just .br]
  | .inInst _ place => place.trials
  | .inTerm _ place => place.trials
  | .nextLabel _ => [.just .newline, .ident, .just .rightBrace]

theorem InstPlace.step_of_absent {place : InstPlace} {token : Token}
    (absent : ∀ trial ∈ place.trials, trial.accepts token = false) :
    place.step token = none := by
  cases place <;> cases token <;> first
    | rfl
    | simp [trials, Trial.value, Trial.int, Trial.mnemonic, Trial.just, Trial.of, Token.value?,
        Token.int?, Token.mnemonic?] at absent

theorem TermPlace.step_of_absent {place : TermPlace} {token : Token}
    (absent : ∀ trial ∈ place.trials, trial.accepts token = false) :
    place.step token = none := by
  cases place <;> cases token <;> first
    | rfl
    | simp [trials, Trial.value, Trial.int, Trial.ident, Trial.just, Trial.of, Token.value?,
        Token.int?, Token.ident?] at absent

variable {functions : List Function}

theorem Place.step_of_absent {place : Place} {token : Token}
    (absent : ∀ trial ∈ place.trials, trial.accepts token = false) :
    State.step ⟨functions, place⟩ token = none := by
  cases place with
  | inInst block place =>
      show ((place.step token).map _).map _ = none
      rw [InstPlace.step_of_absent absent]
      rfl
  | inTerm block place =>
      show ((place.step token).map _).map _ = none
      rw [TermPlace.step_of_absent absent]
      rfl
  | _ =>
      cases token <;> first
        | rfl
        | simp [trials, Trial.value, Trial.ident, Trial.just, Trial.of, Token.value?,
            Token.ident?] at absent

/-- Nothing but what is looked for at a place inside a function leads on from there. -/
theorem Place.waits (place : Place) (inside : place ≠ .outside) :
    State.Waits ⟨functions, place⟩ place.trials where
  unfinished := by
    cases place with
    | outside => exact absurd rfl inside
    | _ => rfl
  expected := by
    cases place with
    | outside => exact absurd rfl inside
    | inInst block place => cases place <;> rfl
    | inTerm block place => cases place <;> rfl
    | _ => rfl
  refuses _ absent := step_of_absent absent

theorem State.step_of_place {functions : List Function} {place next : Place} {token : Token}
    (moved : place.step token = some next) :
    State.step ⟨functions, place⟩ token = some ⟨functions, next⟩ := by
  unfold step
  split
  · rename_i isNextLabel
    simp only at isNextLabel
    subst isNextLabel
    cases moved
  · simp only [moved, Option.map_some]

end Grammar

namespace Target

variable {target : Target} {functions : List Function} {place : Place}

/-! ## Leaves -/

theorem follows_just (next : Place) {token : Token} (moved : place.step token = some next)
    {tried : List Trial} (waits : State.Waits ⟨functions, place⟩ (tried ++ [.just token])) :
    target.Follows (target.At ⟨functions, place⟩ tried) (.just token)
      fun _ => target.At ⟨functions, next⟩ [] :=
  (opens_just (State.step_of_place moved)).follows waits

theorem opens_value (reached : ValueId → Place)
    (moves : ∀ id, place.step (.value id) = some (reached id)) :
    target.Opens ⟨functions, place⟩ Parser.value .value
      fun id => target.At ⟨functions, reached id⟩ [] := by
  refine opens_take (fun token id isValue => State.step_of_place ?_) _
  cases token <;> cases isValue
  exact moves id

theorem opens_int (reached : Int64 → Place)
    (moves : ∀ n, place.step (.int n) = some (reached n)) :
    target.Opens ⟨functions, place⟩ Parser.int .int
      fun n => target.At ⟨functions, reached n⟩ [] := by
  refine opens_take (fun token n isInt => State.step_of_place ?_) _
  cases token <;> cases isInt
  exact moves n

theorem opens_mnemonic (reached : BinOp → Place)
    (moves : ∀ op, place.step (.mnemonic op) = some (reached op)) :
    target.Opens ⟨functions, place⟩ Parser.binop .mnemonic
      fun op => target.At ⟨functions, reached op⟩ [] := by
  refine opens_take (fun token op isMnemonic => State.step_of_place ?_) _
  cases token <;> cases isMnemonic
  exact moves op

theorem opens_ident (reached : String → Place)
    (moves : ∀ name, place.step (.ident name) = some (reached name)) :
    target.Opens ⟨functions, place⟩ Parser.ident .ident
      fun name => target.At ⟨functions, reached name⟩ [] := by
  refine opens_take (fun token name isIdent => State.step_of_place ?_) _
  cases token <;> cases isIdent
  exact moves name

theorem follows_operand (reached : Operand → Place)
    (ofValue : ∀ id, place.step (.value id) = some (reached (.value id)))
    (ofInt : ∀ n, place.step (.int n) = some (reached (.imm n)))
    (waits : State.Waits ⟨functions, place⟩ [.value, .int]) :
    target.Follows (target.At ⟨functions, place⟩ []) Parser.operand
      fun operand => target.At ⟨functions, reached operand⟩ [] := by
  have value : target.Opens ⟨functions, place⟩ (Parser.value.map .value) .value
      fun operand => target.At ⟨functions, reached operand⟩ [] :=
    (opens_value (fun id => reached (.value id)) ofValue).map
  have int : target.Opens ⟨functions, place⟩ (Parser.int.map .imm) .int
      fun operand => target.At ⟨functions, reached operand⟩ [] :=
    (opens_int (fun n => reached (.imm n)) ofInt).map
  refine value.or (int.follows waits) fun token isValue => Refuses.bind (.take ?_ _) _
  cases token <;> first | rfl | cases isValue

/-- Any number of line ends where they lead nowhere else. -/
theorem follows_nl (stays : place.step .newline = some place) :
    target.Follows (target.At ⟨functions, place⟩ []) Parser.nl
      fun _ => target.At ⟨functions, place⟩ [.just .newline] := by
  have row : target.Follows (target.At ⟨functions, place⟩ []) ((Parser.just .newline).repeated 0)
      fun ends cursor =>
        0 ≤ ends.length ∧ target.At ⟨functions, place⟩ [.just .newline] cursor :=
    follows_newlines (fun _ => State.step_of_place stays)
      (fun _ few => absurd few (Nat.not_lt_zero _)) []
  exact row.bind fun _ => .pure fun _ here => here.2

/-- The first line end of a row may lead elsewhere than all others. -/
theorem follows_nl1 (next : Place) (moved : place.step .newline = some next)
    (stays : next.step .newline = some next)
    (waits : State.Waits ⟨functions, place⟩ [.just .newline]) :
    target.Follows (target.At ⟨functions, place⟩ []) Parser.nl1
      fun _ => target.At ⟨functions, next⟩ [.just .newline] := by
  let after (ends : List Token) : Place := if ends = [] then place else next
  have moves (ends : List Token) : (after ends).step .newline =
      some (after (ends ++ [.newline])) := by
    cases ends with
    | nil => exact moved
    | cons first rest => exact stays
  have row : target.Follows (target.At ⟨functions, place⟩ []) ((Parser.just .newline).repeated 1)
      fun ends cursor =>
        1 ≤ ends.length ∧ target.At ⟨functions, after ends⟩ [.just .newline] cursor := by
    refine follows_newlines (fun ends => State.step_of_place (moves ends)) (fun ends few => ?_) []
    obtain rfl := List.length_eq_zero_iff.1 (Nat.lt_one_iff.1 few)
    exact waits
  refine row.bind fun ends => .pure fun cursor ⟨nonempty, here⟩ => ?_
  have isNext : after ends = next := if_neg (List.ne_nil_of_length_pos nonempty)
  exact isNext ▸ here

theorem refuses_just {token other : Token} (differs : other ≠ token) :
    Refuses (.just token) other :=
  .take (if_neg differs) _

/-! ## Lines -/

section Lines

variable {block : OpenBlock}

/-- The three ways in which an operation can begin. -/
theorem opens_op {dest : ValueId} :
    ∃ const copy binary : Parser Op, Parser.op = const.or (copy.or binary) ∧
      target.Opens ⟨functions, .inInst block (.operation dest)⟩ const (.just .const)
        (fun op => target.At ⟨functions, .lineBreak (block.push ⟨dest, op⟩)⟩ []) ∧
      target.Opens ⟨functions, .inInst block (.operation dest)⟩ copy (.just .copy)
        (fun op => target.At ⟨functions, .lineBreak (block.push ⟨dest, op⟩)⟩ []) ∧
      target.Opens ⟨functions, .inInst block (.operation dest)⟩ binary .mnemonic
        fun op => target.At ⟨functions, .lineBreak (block.push ⟨dest, op⟩)⟩ [] := by
  refine ⟨_, _, _, rfl, ?_, ?_, ?_⟩
  · refine ((opens_just rfl).bind fun _ => ?_).map
    exact (opens_int (fun n => .lineBreak (block.push ⟨dest, .const n⟩)) fun _ => rfl).follows
      (Place.waits (.inInst block (.const dest)) nofun)
  · refine ((opens_just rfl).bind fun _ => ?_).map
    exact follows_operand (fun source => .lineBreak (block.push ⟨dest, .copy source⟩))
      (fun _ => rfl) (fun _ => rfl) (Place.waits (.inInst block (.copy dest)) nofun)
  · simp only [Parser.map, Parser.andThen, Parser.thenIgnore, bind_assoc, pure_bind]
    refine (opens_mnemonic (fun op => .inInst block (.binary dest op)) fun _ => rfl).bind
      fun op => ?_
    refine (follows_operand (fun lhs => .inInst block (.binaryComma dest op lhs)) (fun _ => rfl)
      (fun _ => rfl) (Place.waits (.inInst block (.binary dest op)) nofun)).bind fun lhs => ?_
    refine (follows_just (.inInst block (.binaryRhs dest op lhs)) rfl
      (Place.waits (.inInst block (.binaryComma dest op lhs)) nofun)).bind fun _ => ?_
    refine (follows_operand (fun rhs => .lineBreak (block.push ⟨dest, .binary op lhs rhs⟩))
      (fun _ => rfl) (fun _ => rfl)
      (Place.waits (.inInst block (.binaryRhs dest op lhs)) nofun)).bind fun rhs => ?_
    exact .pure fun _ here => here

theorem follows_op {dest : ValueId} :
    target.Follows (target.At ⟨functions, .inInst block (.operation dest)⟩ []) Parser.op
      fun op => target.At ⟨functions, .lineBreak (block.push ⟨dest, op⟩)⟩ [] := by
  obtain ⟨const, copy, binary, choices, isConst, isCopy, isBinary⟩ :=
    @opens_op target functions block dest
  have atEnd : State.Waits ⟨functions, _⟩ _ := Place.waits (.inInst block (.operation dest)) nofun
  rw [choices]
  exact isConst.or_or isCopy isBinary rfl ⟨rfl, rfl⟩ atEnd

theorem opens_inst :
    target.Opens ⟨functions, .line block⟩ Parser.inst .value
      fun inst => target.At ⟨functions, .lineBreak (block.push inst)⟩ [] := by
  unfold Parser.inst
  simp only [Parser.map, Parser.andThen, Parser.thenIgnore, bind_assoc, pure_bind]
  refine (opens_value (fun dest => .inInst block (.equals dest)) fun _ => rfl).bind fun dest => ?_
  refine (follows_just (.inInst block (.operation dest)) rfl
    (Place.waits (.inInst block (.equals dest)) nofun)).bind fun _ => ?_
  exact follows_op.bind fun op => .pure fun _ here => here

/-- An instruction on a line of its own. -/
theorem opens_instLine :
    target.Opens ⟨functions, .line block⟩ (Parser.inst.thenIgnore .nl1) .value
      fun inst => target.At ⟨functions, .line (block.push inst)⟩ [.just .newline] := by
  refine opens_inst.bind fun inst => ?_
  refine (follows_nl1 (.line (block.push inst)) rfl rfl
    (Place.waits (.lineBreak (block.push inst)) nofun)).bind fun _ => ?_
  exact .pure fun _ here => here

/-- The three words that a terminator can begin with. -/
theorem opens_term :
    ∃ ret jmp br : Parser Terminator, Parser.term = ret.or (jmp.or br) ∧
      target.Opens ⟨functions, .line block⟩ ret (.just .ret)
        (fun term => target.At ⟨functions, .blockBreak (block.close term)⟩ []) ∧
      target.Opens ⟨functions, .line block⟩ jmp (.just .jmp)
        (fun term => target.At ⟨functions, .blockBreak (block.close term)⟩ []) ∧
      target.Opens ⟨functions, .line block⟩ br (.just .br)
        fun term => target.At ⟨functions, .blockBreak (block.close term)⟩ [] := by
  refine ⟨_, _, _, rfl, ?_, ?_, ?_⟩
  · refine ((opens_just rfl).bind fun _ => ?_).map
    exact follows_operand (fun result => .blockBreak (block.close (.ret result)))
      (fun _ => rfl) (fun _ => rfl) (Place.waits (.inTerm block .ret) nofun)
  · refine ((opens_just rfl).bind fun _ => ?_).map
    exact (opens_ident (fun target => .blockBreak (block.close (.jmp target))) fun _ => rfl).follows
      (Place.waits (.inTerm block .jmp) nofun)
  · simp only [Parser.map, Parser.andThen, Parser.thenIgnore, Parser.ignoreThen, bind_assoc,
      pure_bind]
    refine (opens_just rfl).bind fun _ => ?_
    refine (follows_operand (fun condition => .inTerm block (.brComma condition)) (fun _ => rfl)
      (fun _ => rfl) (Place.waits (.inTerm block .br) nofun)).bind fun condition => ?_
    refine (follows_just (.inTerm block (.brThen condition)) rfl
      (Place.waits (.inTerm block (.brComma condition)) nofun)).bind fun _ => ?_
    refine ((opens_ident (fun label => .inTerm block (.brThenComma condition label))
      fun _ => rfl).follows (Place.waits (.inTerm block (.brThen condition)) nofun)).bind
        fun thenLabel => ?_
    refine (follows_just (.inTerm block (.brElse condition thenLabel)) rfl
      (Place.waits (.inTerm block (.brThenComma condition thenLabel)) nofun)).bind fun _ => ?_
    refine ((opens_ident (fun label => .blockBreak (block.close (.br condition thenLabel label)))
      fun _ => rfl).follows
        (Place.waits (.inTerm block (.brElse condition thenLabel)) nofun)).bind fun elseLabel => ?_
    exact .pure fun _ here => here

theorem follows_term :
    target.Follows (target.At ⟨functions, .line block⟩ [.just .newline, .value]) Parser.term
      fun term => target.At ⟨functions, .blockBreak (block.close term)⟩ [] := by
  obtain ⟨ret, jmp, br, choices, isRet, isJmp, isBr⟩ :=
    @opens_term target functions block
  have atEnd : State.Waits ⟨functions, _⟩ _ := Place.waits (.line block) nofun
  rw [choices]
  exact isRet.or_or isJmp isBr rfl ⟨rfl, rfl⟩ atEnd

theorem refuses_term {token : Token} (isValue : Trial.value.accepts token = true) :
    Refuses Parser.term token := by
  have words : token ≠ .ret ∧ token ≠ .jmp ∧ token ≠ .br := by
    refine ⟨?_, ?_, ?_⟩ <;> rintro rfl <;> cases isValue
  simp only [Parser.term, Parser.choice, Parser.map, Parser.andThen, Parser.thenIgnore,
    Parser.ignoreThen, bind_assoc]
  exact ((refuses_just words.1).bind _).or
    (((refuses_just words.2.1).bind _).or ((refuses_just words.2.2).bind _))

end Lines

/-! ## Blocks -/

theorem opens_block {function : Function} :
    target.Opens ⟨functions, labelPlace function⟩ Parser.block .ident
      fun block => target.At
        ⟨functions, .nextLabel { function with blocks := function.blocks ++ [block] }⟩
        [.just .newline] := by
  have moves (label : String) : (labelPlace function).step (.ident label) =
      some (.labelColon function label) := by
    unfold labelPlace
    split <;> rfl
  unfold Parser.block
  simp only [Parser.map, Parser.andThen, Parser.thenIgnore, bind_assoc, pure_bind]
  refine (opens_ident (fun label => .labelColon function label) moves).bind fun label => ?_
  refine (follows_just (.lineBreak ⟨function, label, []⟩) rfl
    (Place.waits (.labelColon function label) nofun)).bind fun _ => ?_
  refine (follows_nl1 (.line ⟨function, label, []⟩) rfl rfl
    (Place.waits (.lineBreak ⟨function, label, []⟩) nofun)).bind fun _ => ?_
  let after (insts : List Inst) : State := ⟨functions, .line ⟨function, label, insts⟩⟩
  have opens (insts : List Inst) :
      target.Opens (after insts) (Parser.inst.thenIgnore .nl1) .value
        fun inst => target.At (after (insts ++ [inst])) [.just .newline] :=
    opens_instLine
  refine Opens.repeated opens (fun insts _ => ?_) ?_
    (fun _ few => absurd few (Nat.not_lt_zero _)) []
  · refine follows_term.bind fun term => ?_
    refine (follows_nl1 (.nextLabel (OpenBlock.close ⟨function, label, insts⟩ term)) rfl rfl
      (Place.waits (.blockBreak _) nofun)).bind fun _ => ?_
    exact .pure fun _ here => here
  · intro token _ _ isValue _ _ insts
    exact (refuses_term isValue).bind _

/-! ## Functions -/

theorem follows_params {name : String} :
    target.Follows (target.At ⟨functions, .parameterList name⟩ []) Parser.params
      fun ids => target.At ⟨functions, .body ⟨name, ids, []⟩⟩ [] := by
  unfold Parser.params
  simp only [Parser.delimitedBy, Parser.thenIgnore, Parser.ignoreThen, bind_assoc]
  refine (follows_just (.firstParameter name) rfl
    (Place.waits (.parameterList name) nofun)).bind fun _ => ?_
  let after (ids : List ValueId) : State := ⟨functions, .afterParameter name ids⟩
  have opens (ids : List ValueId) :
      target.Opens (after ids) ((Parser.just .comma).ignoreThen .value) (.just .comma)
        fun id => target.At (after (ids ++ [id])) [] := by
    refine (opens_just rfl).bind fun _ => ?_
    exact (opens_value (fun id => .afterParameter name (ids ++ [id])) fun _ => rfl).follows
      (Place.waits (.nextParameter name ids) nofun)
  refine (opens_value (fun id => .afterParameter name [id]) fun _ => rfl).separatedBy ?_ ?_ ?_
  · refine (follows_just (.body ⟨name, [], []⟩) rfl
      (Place.waits (.firstParameter name) nofun)).bind fun _ => ?_
    exact .pure fun _ here => here
  · intro first
    refine Opens.repeated opens (fun ids _ => ?_) ?_
      (fun _ few => absurd few (Nat.not_lt_zero _)) [first]
    · refine (follows_just (.body ⟨name, ids, []⟩) rfl
        (Place.waits (.afterParameter name ids) nofun)).bind fun _ => ?_
      exact .pure fun _ here => here
    · intro token _ _ isComma _ _ ids
      obtain rfl := Trial.eq_of_accepts_just isComma
      exact Refuses.bind (refuses_just (by decide)) _
  · intro token cursor last accepted isHead fails
    exact absurd fails (Parser.take_ne_none isHead accepted)

theorem follows_body {name : String} {ids : List ValueId} :
    target.Follows (target.At ⟨functions, .body ⟨name, ids, []⟩⟩ []) Parser.body
      fun blocks => target.At ⟨functions ++ [⟨name, ids, blocks⟩], .outside⟩ [] := by
  unfold Parser.body
  simp only [Parser.delimitedBy, Parser.thenIgnore, Parser.ignoreThen, bind_assoc]
  refine (follows_just (.firstLabel ⟨name, ids, []⟩) rfl
    (Place.waits (.body ⟨name, ids, []⟩) nofun)).bind fun _ => ?_
  refine (follows_nl rfl).bind fun _ => ?_
  let after (blocks : List Block) : State := ⟨functions, labelPlace ⟨name, ids, blocks⟩⟩
  have opens (blocks : List Block) :
      target.Opens (after blocks) Parser.block .ident
        fun block => target.At (after (blocks ++ [block])) [.just .newline] := by
    have isNext (block : Block) : labelPlace ⟨name, ids, blocks ++ [block]⟩ =
        .nextLabel ⟨name, ids, blocks ++ [block]⟩ :=
      labelPlace_of_ne_nil (by simp)
    simp only [after, isNext]
    exact opens_block
  refine Opens.repeated opens (fun blocks enough => ?_) ?_ ?_ []
  · have isNext : labelPlace ⟨name, ids, blocks⟩ = .nextLabel ⟨name, ids, blocks⟩ :=
      labelPlace_of_ne_nil (List.ne_nil_of_length_pos enough)
    simp only [after, isNext]
    refine ((opens_just rfl).follows (Place.waits (.nextLabel ⟨name, ids, blocks⟩) nofun)).bind
      fun _ => ?_
    exact .pure fun _ here => here
  · intro token _ _ isIdent _ _ blocks
    refine (refuses_just ?_).bind _
    rintro rfl
    cases isIdent
  · intro blocks few
    obtain rfl := List.length_eq_zero_iff.1 (Nat.lt_one_iff.1 few)
    exact Place.waits (.firstLabel ⟨name, ids, []⟩) nofun

theorem opens_function :
    target.Opens ⟨functions, .outside⟩ Parser.function (.just .fn)
      fun function => target.At ⟨functions ++ [function], .outside⟩ [] := by
  unfold Parser.function
  simp only [Parser.map, Parser.andThen, Parser.ignoreThen, bind_assoc, pure_bind]
  refine (opens_just rfl).bind fun _ => ?_
  refine ((opens_ident (fun name => .parameterList name) fun _ => rfl).follows
    (Place.waits .functionName nofun)).bind fun name => ?_
  refine follows_params.bind fun ids => ?_
  exact follows_body.bind fun blocks => .pure fun _ here => here

/-! ## Whole inputs -/

/-- Where a program may end, the input does, or the reader says what is noted. -/
theorem follows_endOfInput :
    target.Follows (target.At ⟨functions, .outside⟩ ([.just .newline] ++ [.just .fn]))
      (Parser.endOfInput >>= fun _ => pure functions)
      fun functions _ => target.answer = .ok functions := by
  intro cursor here
  have furthest : cursor.furthest = ⟨cursor.rest, [.kind .newline, .kind .fn]⟩ := by
    simpa [Trial.expectations, Trial.just, Trial.of, expecting, Token.kind] using here.furthest
  obtain ⟨rest, _⟩ := cursor
  simp only at furthest
  subst furthest
  cases rest with
  | nil => exact .success here.answer.symm (Nat.le_refl _)
  | cons lexeme rest =>
      have refused : State.step ⟨functions, .outside⟩ lexeme.1 = none :=
        Place.step_of_absent (here.refused lexeme.1 rfl)
      have fails : Parser.endOfInput
          ⟨lexeme :: rest, ⟨lexeme :: rest, [.kind .newline, .kind .fn]⟩⟩ = (none,
            ⟨lexeme :: rest, ⟨lexeme :: rest, [.kind .newline, .kind .fn, .endOfInput]⟩⟩) := by
        simp [Parser.endOfInput, Cursor.fail, expecting]
      rw [Parser.bind_of_none fails]
      refine .failure ?_ (Nat.le_refl _)
      rw [← here.answer]
      simp only [State.read, refused]
      rfl

theorem refuses_endOfInput (token : Token) : Refuses Parser.endOfInput token := by
  rintro ⟨_ | ⟨lexeme, rest⟩, furthest⟩ isHead ahead
  · cases isHead
  · refine ⟨⟨lexeme :: rest, furthest⟩, ?_, rfl⟩
    simp [Parser.endOfInput, Cursor.fail_of_ahead ahead]

theorem follows_program :
    target.Follows (target.At State.start []) (Parser.program.thenIgnore .endOfInput)
      fun functions _ => target.answer = .ok functions := by
  unfold Parser.program
  simp only [Parser.thenIgnore, Parser.ignoreThen, bind_assoc]
  refine (follows_nl rfl).bind fun _ => ?_
  let after (functions : List Function) : State := ⟨functions, .outside⟩
  have opens (functions : List Function) :
      target.Opens (after functions) (Parser.function.thenIgnore .nl) (.just .fn)
        fun function => target.At (after (functions ++ [function])) [.just .newline] := by
    refine opens_function.bind fun function => ?_
    exact (follows_nl rfl).bind fun _ => .pure fun _ here => here
  refine Opens.repeated opens (fun functions _ => follows_endOfInput) ?_
    (fun _ few => absurd few (Nat.not_lt_zero _)) []
  intro token _ _ _ _ _ functions
  exact (refuses_endOfInput token).bind _

end Target

/-- The parser of programs, which goes back, and the reader, which does not, read the same functions
or stop at the same token with the same alternatives. -/
theorem Parser.parse_program (size : Nat) (tokens : List (Token × Span)) :
    Parser.program.parse size tokens = State.start.read size tokens := by
  let target : Target := ⟨size, State.start.read size tokens⟩
  have begins : target.At State.start [] (.ofTokens tokens) := ⟨rfl, fun _ _ => nofun, .inl rfl⟩
  have ends := Target.follows_program _ begins
  unfold Parser.parse
  generalize reads : Parser.thenIgnore _ _ (.ofTokens tokens) = reply at ends
  cases ends with
  | success reached => exact reached.symm
  | failure answer => exact answer.symm

/-- What the tokens of a text spell is what the reader makes of them. -/
theorem Source.readTokens_eq (source : String) :
    readTokens source = State.start.read source.utf8ByteSize (Lexer.tokens source) :=
  Parser.parse_program _ _

end PassScheduler
