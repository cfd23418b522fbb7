import PassScheduler.Proofs.Transform.Potential
import PassScheduler.Proofs.Transform.WellFormedness

/-!
Contract: a function that no transformation changes is in normal form.

Each clause but one is what a transformation has nothing left to do about. That there are no
constants follows from two of them together. A value that is known to be constant is used nowhere,
so it is not live, and the instruction that defines it would have been dropped.

Owns:
- the normal form, said of instructions and terminators without the transformations;
- what it means that a transformation leaves a function as it is;
- that a function is in normal form if every transformation does so.

Does not own: when transformations leave a function as it is.
-/

namespace PassScheduler

/-! ## The normal form -/

/-- An operation that a law of arithmetic makes simpler. -/
inductive Op.Simplifies : Op → Prop where
  | addZero (x : Operand) : Simplifies (.binary .add x (.imm 0))
  | zeroAdd (x : Operand) : Simplifies (.binary .add (.imm 0) x)
  | subZero (x : Operand) : Simplifies (.binary .sub x (.imm 0))
  | mulOne (x : Operand) : Simplifies (.binary .mul x (.imm 1))
  | oneMul (x : Operand) : Simplifies (.binary .mul (.imm 1) x)
  | mulZero (x : Operand) : Simplifies (.binary .mul x (.imm 0))
  | zeroMul (x : Operand) : Simplifies (.binary .mul (.imm 0) x)
  | subSelf (id : ValueId) : Simplifies (.binary .sub (.value id) (.value id))

/-- Nothing is left to do in an operation: it is no constant, an operation on two immediates has no
value, and no law makes it simpler. -/
structure Op.Normal (op : Op) : Prop where
  notConst : ∀ n, op ≠ .const n
  notCopy : ∀ n, op ≠ .copy (.imm n)
  noValue : ∀ kind lhs rhs, op = .binary kind (.imm lhs) (.imm rhs) → kind.eval lhs rhs = none
  notSimpler : ¬ op.Simplifies

/-- A branch depends on a value, and on that it depends where it leads. -/
def Terminator.Normal (term : Terminator) : Prop :=
  ∀ condition thenLabel elseLabel, term = .br condition thenLabel elseLabel →
    (∀ n, condition ≠ .imm n) ∧ thenLabel ≠ elseLabel

/-- Nothing is left to do in a function, and all that it computes is needed. -/
structure Function.Normal (function : Function) : Prop where
  ops : ∀ inst ∈ function.insts, inst.op.Normal
  terms : ∀ block ∈ function.blocks, block.term.Normal
  live : ∀ inst ∈ function.insts, inst.dest ∈ function.liveValues

/-! ## What is left as it is -/

/-- What leaves a list as it is leaves every element as it is. -/
theorem eq_self_of_map {α : Type} {change : α → α} {elements : List α}
    (same : elements.map change = elements) :
    ∀ element ∈ elements, change element = element :=
  List.map_inj_left.1 (same.trans (List.map_id elements).symm)

theorem Function.eq_self_of_mapBlocks {function : Function} {change : Block → Block}
    (same : function.mapBlocks change = function) :
    ∀ block ∈ function.blocks, change block = block :=
  eq_self_of_map (congrArg Function.blocks same)

/-! ## Operations -/

namespace Operand

variable {known : ValueId → Option Int64}

/-- Only a value that is not known is still there after a substitution. -/
theorem unknown_of_substitute {operand : Operand} {id : ValueId}
    (substituted : operand.substitute known = .value id) :
    known id = none := by
  obtain rfl := eq_value_of_substitute substituted
  cases isKnown : known id with
  | none => rfl
  | some n => simp [substitute, isKnown] at substituted

theorem unknown_of_map {operands : List Operand} {id : ValueId}
    (used : id ∈ valuesIn (operands.map (substitute known))) :
    known id = none := by
  obtain ⟨_, _, substituted⟩ := List.mem_map.1 (mem_valuesIn.1 used)
  exact unknown_of_substitute substituted

end Operand

namespace Op

variable {op : Op}

theorem simplifies_of_simplified? {simpler : Op} (found : op.simplified? = some simpler) :
    op.Simplifies := by
  unfold simplified? at found
  split at found
  · exact .addZero _
  · exact .zeroAdd _
  · exact .subZero _
  · exact .mulOne _
  · exact .oneMul _
  · exact .mulZero _
  · exact .zeroMul _
  · split at found
    · rename_i same
      rw [same]
      exact .subSelf _
    · cases found
  · cases found

/-- An operation is left as it is iff no law makes it simpler. -/
theorem simplified?_eq_none_iff : op.simplified? = none ↔ ¬ op.Simplifies := by
  constructor
  · intro missing simplifies
    unfold simplified? at missing
    split at missing
    case h_8 =>
      split at missing
      · cases missing
      · rename_i distinct
        cases simplifies
        exact distinct rfl
    case h_9 noAddZero noZeroAdd noSubZero noMulOne noOneMul noMulZero noZeroMul noSubSelf =>
      cases simplifies with
      | addZero x => exact noAddZero x rfl
      | zeroAdd x => exact noZeroAdd x rfl
      | subZero x => exact noSubZero x rfl
      | mulOne x => exact noMulOne x rfl
      | oneMul x => exact noOneMul x rfl
      | mulZero x => exact noMulZero x rfl
      | zeroMul x => exact noZeroMul x rfl
      | subSelf id => exact noSubSelf id id rfl
    all_goals cases missing
  · intro noLaw
    cases found : op.simplified? with
    | none => rfl
    | some simpler => exact absurd (simplifies_of_simplified? found) noLaw

/-- Nothing that is known is used by an operation that a substitution and folding leave as it is. -/
theorem unknown_of_foldWith {known : ValueId → Option Int64} {inst : Inst}
    (same : inst.foldWith known = inst) :
    ∀ id ∈ valuesIn inst.op.operands, known id = none := by
  intro id used
  have folded : (inst.op.mapOperands (Operand.substitute known)).fold = inst.op :=
    congrArg Inst.op same
  rw [← folded] at used
  have substituted := operands_fold_subset _ (mem_valuesIn.1 used)
  rw [operands_mapOperands] at substituted
  exact Operand.unknown_of_map (mem_valuesIn.2 substituted)

theorem simplified?_of_simplify {inst : Inst} (same : inst.simplify = inst) :
    inst.op.simplified? = none := by
  cases found : inst.op.simplified? with
  | none => rfl
  | some simpler =>
      obtain ⟨wasBinary, notBinary⟩ := isBinary_of_simplified? found
      have isSimpler : inst.simplify.op = simpler := by
        simp only [Inst.simplify, found, Option.getD_some]
      rw [same] at isSimpler
      exact absurd (isSimpler ▸ wasBinary) notBinary

/-- Of an operation that folding and the laws leave as it is, it only remains to be said that it is
no constant. -/
theorem normal_of_same {known : ValueId → Option Int64} {inst : Inst}
    (folded : inst.foldWith known = inst) (simplified : inst.simplify = inst)
    (notConst : ∀ n, inst.op ≠ .const n) :
    inst.op.Normal := by
  have folded : (inst.op.mapOperands (Operand.substitute known)).fold = inst.op :=
    congrArg Inst.op folded
  refine ⟨notConst, ?_, ?_, simplified?_eq_none_iff.1 (simplified?_of_simplify simplified)⟩
  · intro n isCopy
    rw [isCopy] at folded
    cases folded
  · intro kind lhs rhs isBinary
    rw [isBinary] at folded
    cases value : kind.eval lhs rhs with
    | none => rfl
    | some n => simp [mapOperands, Operand.substitute, fold, value] at folded

end Op

theorem Terminator.normal_of_simplify {term : Terminator} (same : term.simplify = term) :
    term.Normal := by
  have unknown : term.knownTarget? = none := by
    cases known : term.knownTarget? with
    | none => rfl
    | some target =>
        obtain ⟨_, _, _, rfl, _⟩ := eq_br_of_knownTarget? known
        rw [simplify, known] at same
        cases same
  rintro condition thenLabel elseLabel rfl
  cases condition with
  | imm n => cases unknown
  | value id =>
      refine ⟨fun n isImm => (by cases isImm), fun sameLabel => ?_⟩
      simp [knownTarget?, sameLabel] at unknown

/-! ## Functions -/

namespace Function

variable {function : Function}

/-- A further round after folding changes nothing. -/
theorem foldRound_foldConstants (function : Function) :
    function.foldConstants.foldRound = function.foldConstants := by
  induction function using foldConstants.induct with
  | case1 function folded same =>
      rw [foldConstants, if_pos same]
      exact same
  | case2 function folded changed inductionHypothesis =>
      rw [foldConstants, if_neg changed]
      exact inductionHypothesis

theorem mem_usedValues_of_live {id : ValueId} (live : id ∈ function.liveValues) :
    id ∈ function.usedValues := by
  obtain ⟨start, isDemanded, way⟩ := mem_liveValues.1 live
  cases way with
  | refl =>
      obtain ⟨block, isBlock, used⟩ := mem_demandedValues.1 isDemanded
      exact mem_usedValues.2 ⟨block, isBlock, .inr used⟩
  | tail _ isNeeded =>
      obtain ⟨inst, member, _, used⟩ := exists_of_neededFor isNeeded
      obtain ⟨block, isBlock, inBlock⟩ := List.mem_flatMap.1 member
      exact mem_usedValues.2 ⟨block, isBlock, .inl ⟨inst, inBlock, used⟩⟩

/-- What is known to be constant is used nowhere, once folding has nothing left to do. -/
theorem constantOf?_eq_none_of_used (same : function.foldRound = function) {id : ValueId}
    (used : id ∈ function.usedValues) :
    function.constantOf? id = none := by
  obtain ⟨block, isBlock, isUsed⟩ := mem_usedValues.1 used
  have sameBlock := eq_self_of_mapBlocks same block isBlock
  rcases isUsed with ⟨inst, member, used⟩ | used
  · have sameInst := eq_self_of_map (congrArg Block.insts sameBlock) inst member
    exact Op.unknown_of_foldWith sameInst id used
  · have sameTerm : block.term.mapOperands (Operand.substitute function.constantOf?) = block.term :=
      congrArg Block.term sameBlock
    rw [← sameTerm, Terminator.operands_mapOperands] at used
    exact Operand.unknown_of_map used

/-- An instruction that computes a constant makes its destination known. -/
theorem constantOf?_ne_none {inst : Inst} (member : inst ∈ function.insts) {n : Int64}
    (isConstant : inst.op = .const n) :
    function.constantOf? inst.dest ≠ none := by
  intro unknown
  have absent := List.findSome?_eq_none_iff.1 unknown inst (List.mem_reverse.2 member)
  rw [if_pos rfl, isConstant] at absent
  cases absent

/-- A function that every transformation leaves as it is is in normal form, if what is dropped is
what is not live. -/
theorem normal_of_same {sets : LiveSets} (folded : function.foldConstants = function)
    (decided : function.simplifyBranches = function) (simplified : function.simplifyOps = function)
    (dropped : function.dropDead sets = function)
    (known : sets.values? function.name = some function.liveValues) :
    function.Normal := by
  have round : function.foldRound = function := by
    rw [← folded]
    exact foldRound_foldConstants function
  rw [dropDead_eq known] at dropped
  have live : ∀ inst ∈ function.insts, inst.dest ∈ function.liveValues := by
    intro inst member
    obtain ⟨block, isBlock, inBlock⟩ := List.mem_flatMap.1 member
    have kept := congrArg Block.insts (eq_self_of_mapBlocks dropped block isBlock)
    simpa using List.filter_eq_self.1 kept inst inBlock
  refine ⟨fun inst member => ?_, fun block isBlock => ?_, live⟩
  · obtain ⟨block, isBlock, inBlock⟩ := List.mem_flatMap.1 member
    have sameFolded := congrArg Block.insts (eq_self_of_mapBlocks round block isBlock)
    have sameSimplified := congrArg Block.insts (eq_self_of_mapBlocks simplified block isBlock)
    refine Op.normal_of_same (eq_self_of_map sameFolded inst inBlock)
      (eq_self_of_map sameSimplified inst inBlock) fun n isConstant => ?_
    have used := mem_usedValues_of_live (live inst member)
    exact constantOf?_ne_none member isConstant (constantOf?_eq_none_of_used round used)
  · exact Terminator.normal_of_simplify
      (congrArg Block.term (eq_self_of_mapBlocks decided block isBlock))

end Function

end PassScheduler
