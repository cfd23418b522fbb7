import PassScheduler.Proofs.Program.Execution
import PassScheduler.Proofs.Transform.Effect

/-!
Contract: constant folding does what the original does, where no value is defined twice.

Folding puts a number in the place of a value without regard to where the value is defined. In a
run that returns every value that is read is bound, and one that is known to be constant can only
be bound to that constant.

Owns:
- the invariant of environments, `Agrees`, and that parameters and instructions keep it;
- that a round of folding, and folding as a whole, keep definitions and refine a function.

Does not own: which constants are found.
-/

namespace PassScheduler

/-- Every value that is known to be constant is bound to its constant or not at all. -/
def Function.Agrees (function : Function) (env : Environment) : Prop :=
  ∀ id n m, function.constantOf? id = some n → env id = some m → m = n

namespace Function

variable {function : Function} {env : Environment}

theorem exists_of_constantOf? {id : ValueId} {n : Int64}
    (known : function.constantOf? id = some n) :
    ∃ inst ∈ function.insts, inst.dest = id ∧ inst.op.constant? = some n := by
  obtain ⟨inst, member, isConstant⟩ := List.exists_of_findSome?_eq_some known
  split at isConstant
  · rename_i isDest
    exact ⟨inst, List.mem_reverse.1 member, isDest, isConstant⟩
  · cases isConstant

theorem constant?_of_constantOf? (nodup : function.definitions.Nodup) {inst : Inst} {n : Int64}
    (member : inst ∈ function.insts) (known : function.constantOf? inst.dest = some n) :
    inst.op.constant? = some n := by
  obtain ⟨other, isOther, sameDest, isConstant⟩ := exists_of_constantOf? known
  rw [eq_of_dest_eq nodup member isOther sameDest.symm]
  exact isConstant

/-- Parameters are not constants. -/
theorem agrees_bind (nodup : function.definitions.Nodup) (arguments : List Int64) :
    function.Agrees (.bind function.params arguments) := by
  intro id n m known bound
  obtain ⟨inst, member, rfl, _⟩ := exists_of_constantOf? known
  exact absurd (Environment.mem_of_bind bound) (dest_notMem_params nodup member)

end Function

/-! ## Operations -/

theorem Op.evaluate_of_constant? {op : Op} {n : Int64} (isConstant : op.constant? = some n)
    (env : Environment) :
    op.evaluate env = some n := by
  unfold constant? at isConstant
  split at isConstant
  · exact isConstant
  · exact isConstant
  · cases isConstant

theorem Op.evaluate_fold (op : Op) (env : Environment) :
    op.fold.evaluate env = op.evaluate env := by
  unfold fold
  split
  · rfl
  · rename_i op lhs rhs
    cases result : op.eval lhs rhs with
    | none => rfl
    | some n => exact result.symm
  · rfl

section

variable {known : ValueId → Option Int64} {env : Environment}

theorem Operand.read_substitute (agrees : ∀ id n m, known id = some n → env id = some m → m = n)
    {operand : Operand} {n : Int64} (read : operand.read env = some n) :
    (operand.substitute known).read env = some n := by
  cases operand with
  | imm m => exact read
  | value id =>
      cases isKnown : known id with
      | none =>
          simp only [substitute, isKnown]
          exact read
      | some m =>
          simp only [substitute, isKnown]
          rw [agrees id m n isKnown read]
          rfl

theorem Op.evaluate_substitute (agrees : ∀ id n m, known id = some n → env id = some m → m = n)
    {op : Op} {n : Int64} (evaluated : op.evaluate env = some n) :
    (op.mapOperands (Operand.substitute known)).evaluate env = some n := by
  cases op with
  | const m => exact evaluated
  | copy source => exact Operand.read_substitute agrees evaluated
  | binary op lhs rhs =>
      obtain ⟨left, leftRead, rest⟩ := Option.bind_eq_some_iff.1 evaluated
      obtain ⟨right, rightRead, result⟩ := Option.bind_eq_some_iff.1 rest
      have leftAgain := Operand.read_substitute agrees leftRead
      have rightAgain := Operand.read_substitute agrees rightRead
      simp only [Op.mapOperands, Op.evaluate, leftAgain, rightAgain, Option.bind_some, result]

theorem Terminator.follow_substitute
    (agrees : ∀ id n m, known id = some n → env id = some m → m = n) {term : Terminator}
    {control : Control} (followed : term.follow env = some control) :
    (term.mapOperands (Operand.substitute known)).follow env = some control := by
  cases term with
  | jmp target => exact followed
  | ret result =>
      obtain ⟨n, read, isControl⟩ := Option.map_eq_some_iff.1 followed
      simp only [Terminator.mapOperands, follow, Operand.read_substitute agrees read,
        Option.map_some, isControl]
  | br condition thenLabel elseLabel =>
      obtain ⟨n, read, isControl⟩ := Option.map_eq_some_iff.1 followed
      simp only [Terminator.mapOperands, follow, Operand.read_substitute agrees read,
        Option.map_some, isControl]

end

/-! ## Functions -/

theorem Inst.kept_foldWith {function : Function} (nodup : function.definitions.Nodup) {inst : Inst}
    (member : inst ∈ function.insts) :
    inst.Kept function.Agrees (inst.foldWith function.constantOf?) where
  dest := rfl
  value env n agrees evaluated := by
    show (inst.op.mapOperands _).fold.evaluate env = some n
    rw [Op.evaluate_fold]
    exact Op.evaluate_substitute agrees evaluated
  holds env n agrees evaluated := by
    intro id k m known bound
    by_cases isDest : id = inst.dest
    · subst isDest
      have isConstant := Function.constant?_of_constantOf? nodup member known
      rw [Op.evaluate_of_constant? isConstant] at evaluated
      rw [Environment.set_self] at bound
      exact Option.some.inj (bound.symm.trans evaluated.symm)
    · rw [Environment.set_of_ne env isDest] at bound
      exact agrees id k m known bound

namespace Function

theorem refines_foldRound {function : Function} (nodup : function.definitions.Nodup) :
    function.Refines function.foldRound := by
  have simulates : ∀ block ∈ function.blocks,
      block.Simulates (fun env other => other = env ∧ function.Agrees env)
        (block.foldWith function.constantOf?) := by
    intro block isBlock
    exact Block.simulates_map rfl
      (fun inst member => Inst.kept_foldWith nodup (mem_insts isBlock member))
      fun _ _ agrees followed => Terminator.follow_substitute agrees followed
  exact refines_mapBlocks (fun _ => rfl) simulates fun arguments =>
    ⟨rfl, agrees_bind nodup arguments⟩

theorem definitions_foldRound (function : Function) :
    function.foldRound.definitions = function.definitions := by
  apply definitions_mapBlocks
  intro block
  simp [Block.foldWith, Inst.foldWith, Function.comp_def]

/-- Folding keeps the name, the parameters and the definitions of a function, and refines it if no
value is defined twice. -/
theorem foldConstants_spec (function : Function) (nodup : function.definitions.Nodup) :
    function.foldConstants.name = function.name ∧
      function.foldConstants.definitions = function.definitions ∧
      function.Refines function.foldConstants := by
  induction function using foldConstants.induct with
  | case1 function folded same =>
      have last : function.foldConstants = function := by
        rw [foldConstants, if_pos same]
      rw [last]
      exact ⟨rfl, rfl, .refl function⟩
  | case2 function folded changed inductionHypothesis =>
      have next : function.foldConstants = function.foldRound.foldConstants := by
        rw [foldConstants, if_neg changed]
      have definitions := definitions_foldRound function
      obtain ⟨name, sameDefinitions, refines⟩ := inductionHypothesis (definitions ▸ nodup)
      rw [next]
      refine ⟨name, sameDefinitions.trans definitions, ?_⟩
      exact (refines_foldRound nodup).trans refines

end Function

end PassScheduler
