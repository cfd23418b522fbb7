import Mathlib.Data.List.Forall2
import Mathlib.Logic.Function.Iterate
import PassScheduler.Proofs.Transform.NormalForm

/-!
Contract: folding finds the constants that can be derived from the definitions, and changes nothing
else.

What can be derived is the least relation that the definitions allow, so chains of any length and
in any order of blocks count, and values that are defined by each other do not. A round of folding
does not change what can be derived, if no value is defined twice, and after the last round there
is nothing to derive but what instructions say outright.

Owns:
- which number an operand is derived to be, and that it is one at most;
- what a folded function is, said by these numbers alone, and that folding gives it;
- after how many rounds it does.

Does not own: what the numbers mean for runs.
-/

namespace PassScheduler

/-! ## Derived constants -/

/-- The definitions of a function make an operand a number. An immediate is itself. A value is the
number of its definition: a constant, a copy of an operand that is that number, or an operation on
two operands that are numbers. -/
inductive Function.Evaluates (function : Function) : Operand → Int64 → Prop where
  | imm (n : Int64) : Evaluates function (.imm n) n
  | const {id : ValueId} {n : Int64} (member : ⟨id, .const n⟩ ∈ function.insts) :
      Evaluates function (.value id) n
  | copy {id : ValueId} {source : Operand} {n : Int64}
      (member : ⟨id, .copy source⟩ ∈ function.insts) (isSource : Evaluates function source n) :
      Evaluates function (.value id) n
  | binary {id : ValueId} {op : BinOp} {lhs rhs : Operand} {left right n : Int64}
      (member : ⟨id, .binary op lhs rhs⟩ ∈ function.insts)
      (isLeft : Evaluates function lhs left) (isRight : Evaluates function rhs right)
      (result : op.eval left right = some n) :
      Evaluates function (.value id) n

def Function.Derivable (function : Function) (id : ValueId) (n : Int64) : Prop :=
  function.Evaluates (.value id) n

/-- The number of an operation, where the numbers of operands are given by a relation. -/
def Op.Computes (evaluates : Operand → Int64 → Prop) : Op → Int64 → Prop
  | .const m, n => n = m
  | .copy source, n => evaluates source n
  | .binary op lhs rhs, n =>
      ∃ left right, evaluates lhs left ∧ evaluates rhs right ∧ op.eval left right = some n

/-! ## Folded code -/

/-- A value that is derived to be a number becomes that number; any other operand stays. -/
inductive Function.Replaces (function : Function) : Operand → Operand → Prop where
  | imm (n : Int64) : Replaces function (.imm n) (.imm n)
  | derived {id : ValueId} {n : Int64} (derivable : function.Derivable id n) :
      Replaces function (.value id) (.imm n)
  | other {id : ValueId} (underivable : ∀ n, ¬ function.Derivable id n) :
      Replaces function (.value id) (.value id)

/-- An operation of the same kind on related operands. -/
inductive Op.Lifts (related : Operand → Operand → Prop) : Op → Op → Prop where
  | const (n : Int64) : Lifts related (.const n) (.const n)
  | copy {source changed : Operand} (isSource : related source changed) :
      Lifts related (.copy source) (.copy changed)
  | binary (op : BinOp) {lhs rhs changedLhs changedRhs : Operand}
      (isLeft : related lhs changedLhs) (isRight : related rhs changedRhs) :
      Lifts related (.binary op lhs rhs) (.binary op changedLhs changedRhs)

/-- A terminator of the same kind with the same labels on related operands. -/
inductive Terminator.Lifts (related : Operand → Operand → Prop) :
    Terminator → Terminator → Prop where
  | ret {result changed : Operand} (isResult : related result changed) :
      Lifts related (.ret result) (.ret changed)
  | jmp (target : String) : Lifts related (.jmp target) (.jmp target)
  | br {condition changed : Operand} (thenLabel elseLabel : String)
      (isCondition : related condition changed) :
      Lifts related (.br condition thenLabel elseLabel) (.br changed thenLabel elseLabel)

/-- An instruction has become a constant iff its value is derived to be that constant. Any other has
only its derived operands replaced. -/
structure Inst.FoldsTo (function : Function) (inst changed : Inst) : Prop where
  dest : changed.dest = inst.dest
  constant : ∀ n, changed.op = .const n ↔ function.Derivable inst.dest n
  other : (∀ n, ¬ function.Derivable inst.dest n) → inst.op.Lifts function.Replaces changed.op

structure Block.FoldsTo (function : Function) (block changed : Block) : Prop where
  label : changed.label = block.label
  insts : List.Forall₂ (Inst.FoldsTo function) block.insts changed.insts
  term : block.term.Lifts function.Replaces changed.term

structure Function.FoldsTo (function changed : Function) : Prop where
  name : changed.name = function.name
  params : changed.params = function.params
  blocks : List.Forall₂ (Block.FoldsTo function) function.blocks changed.blocks

/-! ## One definition for each value -/

namespace Function

variable {function : Function} {operand : Operand} {inst : Inst} {n m : Int64}

theorem evaluates_of_computes (member : inst ∈ function.insts)
    (computes : inst.op.Computes function.Evaluates n) :
    function.Evaluates (.value inst.dest) n := by
  obtain ⟨id, op⟩ := inst
  cases op with
  | const m =>
      obtain rfl : n = m := computes
      exact .const member
  | copy source => exact .copy member computes
  | binary op lhs rhs =>
      obtain ⟨left, right, isLeft, isRight, result⟩ := computes
      exact .binary member isLeft isRight result

/-- What holds of immediates, and of the value of every instruction whose operands it holds of,
holds of all numbers that are derived. -/
theorem Evaluates.induction {motive : Operand → Int64 → Prop} (imm : ∀ n, motive (.imm n) n)
    (value : ∀ inst ∈ function.insts, ∀ n, inst.op.Computes motive n → motive (.value inst.dest) n)
    (evaluates : function.Evaluates operand n) :
    motive operand n := by
  induction evaluates with
  | imm n => exact imm n
  | const member => exact value _ member _ rfl
  | copy member _ isSource => exact value _ member _ isSource
  | binary member _ _ result isLeft isRight =>
      exact value _ member _ ⟨_, _, isLeft, isRight, result⟩

theorem evaluates_imm_iff : function.Evaluates (.imm m) n ↔ n = m := by
  constructor
  · rintro ⟨⟩
    rfl
  · rintro rfl
    exact .imm n

theorem exists_of_evaluates_value {id : ValueId} (evaluates : function.Evaluates (.value id) n) :
    ∃ inst ∈ function.insts, inst.dest = id ∧ inst.op.Computes function.Evaluates n := by
  cases evaluates with
  | const member => exact ⟨_, member, rfl, rfl⟩
  | copy member isSource => exact ⟨_, member, rfl, isSource⟩
  | binary member isLeft isRight result => exact ⟨_, member, rfl, _, _, isLeft, isRight, result⟩

/-- Where no value is defined twice, its number is that of its definition. -/
theorem derivable_dest_iff (nodup : function.definitions.Nodup) (member : inst ∈ function.insts) :
    function.Derivable inst.dest n ↔ inst.op.Computes function.Evaluates n := by
  constructor
  · intro derivable
    obtain ⟨other, isOther, sameDest, computes⟩ := exists_of_evaluates_value derivable
    rwa [eq_of_dest_eq nodup member isOther sameDest.symm]
  · exact evaluates_of_computes member

theorem Evaluates.unique (nodup : function.definitions.Nodup)
    (isFirst : function.Evaluates operand n) (isSecond : function.Evaluates operand m) :
    m = n := by
  refine Evaluates.induction
    (motive := fun operand n => ∀ m, function.Evaluates operand m → m = n)
    (fun n m isSecond => evaluates_imm_iff.1 isSecond) (fun inst member n computes m isSecond => ?_)
    isFirst m isSecond
  have again := (derivable_dest_iff nodup member).1 isSecond
  cases isOp : inst.op with
  | const k =>
      rw [isOp] at computes again
      exact Eq.trans again (Eq.symm computes)
  | copy source =>
      rw [isOp] at computes again
      exact computes m again
  | binary op lhs rhs =>
      rw [isOp] at computes again
      obtain ⟨left, right, isLeft, isRight, result⟩ := computes
      obtain ⟨otherLeft, otherRight, leftAgain, rightAgain, otherResult⟩ := again
      rw [isLeft _ leftAgain, isRight _ rightAgain, result] at otherResult
      exact (Option.some.inj otherResult).symm

/-! ## What a round leaves derivable -/

section Substitution

variable {known : ValueId → Option Int64}

theorem evaluates_substitute_iff (nodup : function.definitions.Nodup)
    (derived : ∀ id n, known id = some n → function.Derivable id n) :
    function.Evaluates (operand.substitute known) n ↔ function.Evaluates operand n := by
  cases operand with
  | imm m => rfl
  | value id =>
      simp only [Operand.substitute]
      split
      · rename_i m isKnown
        rw [evaluates_imm_iff]
        constructor
        · rintro rfl
          exact derived id n isKnown
        · exact fun evaluates => (derived id m isKnown).unique nodup evaluates
      · rfl

theorem computes_fold_iff {op : Op} :
    op.fold.Computes function.Evaluates n ↔ op.Computes function.Evaluates n := by
  unfold Op.fold
  split
  · exact evaluates_imm_iff.symm
  · rename_i kind lhs rhs
    simp only [Op.Computes, evaluates_imm_iff]
    cases value : kind.eval lhs rhs with
    | none => simp [evaluates_imm_iff, value]
    | some m => simp [value, eq_comm]
  · rfl

/-- Substitution and folding of an instruction do not change its number. -/
theorem computes_foldWith_iff (nodup : function.definitions.Nodup)
    (derived : ∀ id n, known id = some n → function.Derivable id n) :
    (inst.foldWith known).op.Computes function.Evaluates n ↔
      inst.op.Computes function.Evaluates n := by
  have operand (operand : Operand) (n : Int64) :
      function.Evaluates (operand.substitute known) n ↔ function.Evaluates operand n :=
    evaluates_substitute_iff nodup derived
  refine computes_fold_iff.trans ?_
  cases inst.op <;> simp only [Op.mapOperands, Op.Computes, operand]

end Substitution

theorem computes_of_constant? {op : Op} (isConstant : op.constant? = some n) :
    op.Computes function.Evaluates n := by
  unfold Op.constant? at isConstant
  split at isConstant
  · exact (Option.some.inj isConstant).symm
  · exact evaluates_imm_iff.2 (Option.some.inj isConstant).symm
  · cases isConstant

theorem derivable_of_constantOf? {id : ValueId} (known : function.constantOf? id = some n) :
    function.Derivable id n := by
  obtain ⟨inst, member, rfl, isConstant⟩ := exists_of_constantOf? known
  exact evaluates_of_computes member (computes_of_constant? isConstant)

theorem insts_foldRound (function : Function) :
    function.foldRound.insts = function.insts.map (Inst.foldWith function.constantOf?) := by
  simp [insts, foldRound, mapBlocks, Block.foldWith, List.flatMap_map, List.map_flatMap]

theorem fold_of_constant? {known : ValueId → Option Int64} {op : Op}
    (isConstant : op.constant? = some n) :
    (op.mapOperands (Operand.substitute known)).fold = .const n := by
  unfold Op.constant? at isConstant
  split at isConstant
  · exact congrArg Op.const (Option.some.inj isConstant)
  · exact congrArg Op.const (Option.some.inj isConstant)
  · cases isConstant

/-- What a round finds, the next one finds again. -/
theorem derivable_foldRound_of_constantOf? {id : ValueId}
    (known : function.constantOf? id = some n) :
    function.foldRound.Derivable id n := by
  obtain ⟨inst, member, rfl, isConstant⟩ := exists_of_constantOf? known
  have folded : inst.foldWith function.constantOf? = ⟨inst.dest, .const n⟩ :=
    congrArg (Inst.mk inst.dest) (fold_of_constant? isConstant)
  refine .const ?_
  rw [insts_foldRound, ← folded]
  exact List.mem_map_of_mem member

/-- A round changes nothing about what can be derived. -/
theorem evaluates_foldRound_iff (nodup : function.definitions.Nodup) :
    function.foldRound.Evaluates operand n ↔ function.Evaluates operand n := by
  have nodupAfter : function.foldRound.definitions.Nodup := by
    rwa [definitions_foldRound]
  constructor
  · refine Evaluates.induction Evaluates.imm fun changed member n computes => ?_
    rw [insts_foldRound] at member
    obtain ⟨inst, isInst, rfl⟩ := List.mem_map.1 member
    have before : function.Evaluates (.value inst.dest) n := evaluates_of_computes isInst
      ((computes_foldWith_iff nodup fun _ _ => derivable_of_constantOf?).1 computes)
    exact before
  · refine Evaluates.induction Evaluates.imm fun inst member n computes => ?_
    have isChanged : inst.foldWith function.constantOf? ∈ function.foldRound.insts := by
      rw [insts_foldRound]
      exact List.mem_map_of_mem member
    have computesAfter : (inst.foldWith function.constantOf?).op.Computes
        function.foldRound.Evaluates n :=
      (computes_foldWith_iff nodupAfter fun _ _ => derivable_foldRound_of_constantOf?).2 computes
    have after := evaluates_of_computes isChanged computesAfter
    exact after

/-! ## After the last round -/

/-- What an operand is without any derivation: an immediate is itself, and a value is the constant
that an instruction writes to it. -/
def IsOutright (function : Function) : Operand → Int64 → Prop
  | .imm m, n => n = m
  | .value id, n => ⟨id, .const n⟩ ∈ function.insts

section LastRound

variable {id : ValueId} (same : function.foldRound = function)
include same

theorem foldWith_eq_self (member : inst ∈ function.insts) :
    inst.foldWith function.constantOf? = inst := by
  have sameInsts : function.insts.map (Inst.foldWith function.constantOf?) = function.insts := by
    rw [← insts_foldRound, same]
  exact eq_self_of_map sameInsts inst member

/-- Where a round has nothing left to do, instructions use no constants, and an operation on
immediates that has a value is already that value. -/
theorem const_of_computes_outright (member : inst ∈ function.insts)
    (computes : inst.op.Computes function.IsOutright n) :
    inst.op = .const n := by
  have sameInst := foldWith_eq_self same member
  have isImm : ∀ operand ∈ inst.op.operands, ∀ n, function.IsOutright operand n →
      operand = .imm n := by
    intro operand used n outright
    cases operand with
    | imm m => exact congrArg Operand.imm (Eq.symm outright)
    | value id =>
        have unknown := Op.unknown_of_foldWith sameInst id (mem_valuesIn.2 used)
        exact absurd unknown (constantOf?_ne_none outright rfl)
  have folded : (inst.op.mapOperands (Operand.substitute function.constantOf?)).fold = inst.op :=
    congrArg Inst.op sameInst
  cases isOp : inst.op with
  | const m =>
      rw [isOp] at computes
      exact congrArg Op.const (Eq.symm computes)
  | copy source =>
      rw [isOp] at computes isImm folded
      obtain rfl := isImm source List.mem_cons_self n computes
      cases folded
  | binary op lhs rhs =>
      rw [isOp] at computes isImm folded
      obtain ⟨left, right, isLeft, isRight, result⟩ := computes
      obtain rfl := isImm lhs List.mem_cons_self left isLeft
      obtain rfl := isImm rhs (List.mem_cons_of_mem _ List.mem_cons_self) right isRight
      simp [Op.mapOperands, Operand.substitute, Op.fold, result] at folded

/-- Where a round has nothing left to do, what can be derived is what instructions say outright. -/
theorem derivable_iff_const :
    function.Derivable id n ↔ ⟨id, .const n⟩ ∈ function.insts := by
  refine ⟨Evaluates.induction (motive := function.IsOutright) (fun _ => rfl) ?_, .const⟩
  intro inst member n computes
  show ⟨inst.dest, .const n⟩ ∈ function.insts
  rw [← const_of_computes_outright same member computes]
  exact member

/-- Where a round has nothing left to do, operands stay as they are. -/
theorem replaces_self (used : ∀ id, operand = .value id → id ∈ function.usedValues) :
    function.Replaces operand operand := by
  cases operand with
  | imm n => exact .imm n
  | value id =>
      have unknown := constantOf?_eq_none_of_used same (used id rfl)
      refine .other fun n derivable => ?_
      exact constantOf?_ne_none ((derivable_iff_const same).1 derivable) rfl unknown

end LastRound

end Function

section Lifts

variable {related other : Operand → Operand → Prop}

theorem Op.lifts_self {op : Op} (each : ∀ operand ∈ op.operands, related operand operand) :
    op.Lifts related op := by
  cases op with
  | const n => exact .const n
  | copy source => exact .copy (each _ List.mem_cons_self)
  | binary op lhs rhs =>
      exact .binary op (each _ List.mem_cons_self)
        (each _ (List.mem_cons_of_mem _ List.mem_cons_self))

theorem Terminator.lifts_self {term : Terminator}
    (each : ∀ operand ∈ term.operands, related operand operand) :
    term.Lifts related term := by
  cases term with
  | ret result => exact .ret (each _ List.mem_cons_self)
  | jmp target => exact .jmp target
  | br condition thenLabel elseLabel => exact .br _ _ (each _ List.mem_cons_self)

theorem Op.Lifts.eq_const {n : Int64} {changed : Op} (lifts : (Op.const n).Lifts related changed) :
    changed = .const n := by
  cases lifts
  rfl

variable {change : Operand → Operand}
  (each : ∀ operand changed, related (change operand) changed → other operand changed)
include each

theorem Op.Lifts.of_mapOperands {op changed : Op}
    (lifts : (op.mapOperands change).Lifts related changed) :
    op.Lifts other changed := by
  cases op with
  | const n => cases lifts; exact .const n
  | copy source => cases lifts with | copy isSource => exact .copy (each _ _ isSource)
  | binary op lhs rhs =>
      cases lifts with
      | binary _ isLeft isRight => exact .binary op (each _ _ isLeft) (each _ _ isRight)

theorem Terminator.Lifts.of_mapOperands {term changed : Terminator}
    (lifts : (term.mapOperands change).Lifts related changed) :
    term.Lifts other changed := by
  cases term with
  | ret result => cases lifts with | ret isResult => exact .ret (each _ _ isResult)
  | jmp target => cases lifts; exact .jmp target
  | br condition thenLabel elseLabel =>
      cases lifts with | br _ _ isCondition => exact .br _ _ (each _ _ isCondition)

end Lifts

theorem Op.fold_eq (op : Op) : op.fold = op ∨ ∃ n, op.fold = .const n := by
  unfold fold
  split
  · exact .inr ⟨_, rfl⟩
  · split
    · exact .inr ⟨_, rfl⟩
    · exact .inl rfl
  · exact .inl rfl

namespace Function

variable {function : Function} {inst : Inst} {changed : Function}

/-- Where a round has nothing left to do, a function is already folded. -/
theorem foldsTo_self (nodup : function.definitions.Nodup) (same : function.foldRound = function) :
    function.FoldsTo function := by
  refine ⟨rfl, rfl, List.forall₂_same.2 fun block isBlock =>
    ⟨rfl, List.forall₂_same.2 fun inst inBlock => ?_, ?_⟩⟩
  · have member := mem_insts isBlock inBlock
    refine ⟨rfl, fun n => ?_, fun _ => Op.lifts_self fun operand used => ?_⟩
    · rw [derivable_iff_const same]
      constructor
      · intro isConst
        rw [← isConst]
        exact member
      · intro outright
        rw [eq_of_dest_eq nodup member outright rfl]
    · refine replaces_self same fun id isValue => mem_usedValues.2 ⟨block, isBlock, .inl ?_⟩
      exact ⟨inst, inBlock, mem_valuesIn.2 (isValue ▸ used)⟩
  · refine Terminator.lifts_self fun operand used => replaces_self same fun id isValue => ?_
    exact mem_usedValues.2 ⟨block, isBlock, .inr (mem_valuesIn.2 (isValue ▸ used))⟩

/-! ## Rounds one after the other -/

section Round

variable (nodup : function.definitions.Nodup)
include nodup

theorem derivable_foldRound_iff {id : ValueId} {n : Int64} :
    function.foldRound.Derivable id n ↔ function.Derivable id n :=
  evaluates_foldRound_iff nodup

theorem replaces_of_foldRound {operand other : Operand}
    (replaces : function.foldRound.Replaces (operand.substitute function.constantOf?) other) :
    function.Replaces operand other := by
  cases operand with
  | imm n => cases replaces; exact .imm n
  | value id =>
      simp only [Operand.substitute] at replaces
      split at replaces
      · rename_i n known
        cases replaces
        exact .derived (derivable_of_constantOf? known)
      · cases replaces with
        | derived derivable => exact .derived ((derivable_foldRound_iff nodup).1 derivable)
        | other underivable =>
            exact .other fun n derivable =>
              underivable n ((derivable_foldRound_iff nodup).2 derivable)

theorem instFoldsTo_of_foldRound {other : Inst}
    (folds : (inst.foldWith function.constantOf?).FoldsTo function.foldRound other) :
    inst.FoldsTo function other := by
  refine ⟨folds.dest, fun n => (folds.constant n).trans (derivable_foldRound_iff nodup), ?_⟩
  intro underivable
  have underivableAfter : ∀ n, ¬ function.foldRound.Derivable inst.dest n := fun n derivable =>
    underivable n ((derivable_foldRound_iff nodup).1 derivable)
  have lifts : (inst.op.mapOperands (Operand.substitute function.constantOf?)).fold.Lifts
      function.foldRound.Replaces other.op := folds.other underivableAfter
  rcases Op.fold_eq (inst.op.mapOperands (Operand.substitute function.constantOf?)) with
    kept | ⟨n, isConst⟩
  · rw [kept] at lifts
    exact lifts.of_mapOperands fun _ _ => replaces_of_foldRound nodup
  · -- An operation that the round makes a constant would be derived.
    rw [isConst] at lifts
    exact absurd ((folds.constant n).1 lifts.eq_const) (underivableAfter n)

theorem foldsTo_of_foldRound (folds : function.foldRound.FoldsTo changed) :
    function.FoldsTo changed := by
  refine ⟨folds.name, folds.params, ?_⟩
  have blocks := List.forall₂_map_left_iff.1 folds.blocks
  refine blocks.imp fun block other folds => ⟨folds.label, ?_, ?_⟩
  · exact (List.forall₂_map_left_iff.1 folds.insts).imp fun _ _ =>
      instFoldsTo_of_foldRound nodup
  · exact folds.term.of_mapOperands fun _ _ => replaces_of_foldRound nodup

end Round

theorem foldsTo_foldConstants (nodup : function.definitions.Nodup) :
    function.FoldsTo function.foldConstants := by
  induction function using foldConstants.induct with
  | case1 function folded same =>
      rw [foldConstants, if_pos same]
      exact foldsTo_self nodup same
  | case2 function folded changed inductionHypothesis =>
      rw [foldConstants, if_neg changed]
      refine foldsTo_of_foldRound nodup (inductionHypothesis ?_)
      rwa [definitions_foldRound]

/-- What so many rounds of folding leave. -/
def afterRounds (count : Nat) : Function → Function :=
  (fun function => (Edit.foldRound function).value)^[count]

/-- Folding is so many rounds, each of which changes something and says so. One more would do
neither. Folding itself reports a change iff there are any. -/
structure FoldedAfter (function : Function) (count : Nat) : Prop where
  rounds : (Edit.foldConstants function).value = afterRounds count function
  reported : ∀ earlier < count, (Edit.foldRound (afterRounds earlier function)).changed = true
  progress : ∀ earlier < count, afterRounds (earlier + 1) function ≠ afterRounds earlier function
  last : Edit.foldRound (Edit.foldConstants function).value =
    pure (Edit.foldConstants function).value
  report : (Edit.foldConstants function).changed = true ↔ 0 < count

/-- A round that changes nothing reports nothing. -/
theorem foldRound_eq_pure {function : Function} (same : function.foldRound = function) :
    Edit.foldRound function = pure function := by
  rcases Edit.foldRound_lightens function with unchanged | ⟨changed, _⟩
  · exact unchanged
  · exact absurd same (function.changed_foldRound_iff.1 changed)

/-- There are no more rounds than there is to fold. -/
theorem exists_foldedAfter (function : Function) :
    ∃ count ≤ function.foldWeight, function.FoldedAfter count := by
  have last (function : Function) : Edit.foldRound (Edit.foldConstants function).value =
      pure (Edit.foldConstants function).value := by
    rw [Edit.foldConstants_eq_foldRound]
    exact foldRound_eq_pure (foldRound_foldConstants function)
  induction function using foldConstants.induct with
  | case1 function folded same =>
      have idle : Edit.foldConstants function = pure function := by
        rw [Edit.foldConstants_eq_foldRound, foldRound_eq_pure same, foldConstants, if_pos same]
        rfl
      exact ⟨0, Nat.zero_le _, congrArg Edited.value idle,
        fun _ isEarlier => absurd isEarlier (Nat.not_lt_zero _),
        fun _ isEarlier => absurd isEarlier (Nat.not_lt_zero _), last function, by simp [idle]⟩
  | case2 function folded changed inductionHypothesis =>
      have reports := function.changed_foldRound_iff.2 changed
      have left : folded = (Edit.foldRound function).value := (Edit.value_foldRound function).symm
      have next : Edit.foldConstants function = ⟨(Edit.foldConstants folded).value, true⟩ := by
        rw [Edit.foldConstants_eq_foldRound, reports, foldConstants, if_neg changed,
          Edit.foldConstants_eq_foldRound]
      obtain ⟨count, few, rounds, reported, progress, _, _⟩ := inductionHypothesis
      have fewer : count + 1 ≤ function.foldWeight :=
        Nat.succ_le_of_lt (Nat.lt_of_le_of_lt few (foldRound_lighter changed))
      refine ⟨count + 1, fewer, ?_, ?_, ?_, last function, by simp [next]⟩
      · rw [next, rounds, left]
        rfl
      · rintro (_ | earlier) isEarlier
        · exact reports
        · rw [left] at reported
          exact reported earlier (Nat.lt_of_succ_lt_succ isEarlier)
      · rintro (_ | earlier) isEarlier
        · rw [left] at changed
          exact changed
        · rw [left] at progress
          exact progress earlier (Nat.lt_of_succ_lt_succ isEarlier)

/-- Folding changes a function iff its first round does. -/
theorem foldConstants_eq_self_iff (function : Function) :
    function.foldConstants = function ↔ function.foldRound = function := by
  constructor
  · intro same
    rw [← same]
    exact foldRound_foldConstants function
  · intro same
    rw [foldConstants, if_pos same]

end Function

end PassScheduler
