import PassScheduler.Proofs.Program.Execution
import PassScheduler.Proofs.Transform.Effect

/-!
Contract: simpler operations and known branches do what the originals do.

Owns: that `simplifyOps` and `simplifyBranches` refine every function, checked or not.

Does not own: which operations are left after a simplification.
-/

namespace PassScheduler

/-! ## Operations -/

namespace Op

variable {env : Environment}

private theorem evaluate_binary {op : BinOp} {lhs rhs : Operand} {n : Int64}
    (evaluated : (Op.binary op lhs rhs).evaluate env = some n) :
    ∃ left right, lhs.read env = some left ∧ rhs.read env = some right ∧
      op.eval left right = some n := by
  obtain ⟨left, leftRead, rest⟩ := Option.bind_eq_some_iff.1 evaluated
  obtain ⟨right, rightRead, result⟩ := Option.bind_eq_some_iff.1 rest
  exact ⟨left, right, leftRead, rightRead, result⟩

private theorem read_of_right_unit (op : BinOp) (unit : Int64) {x : Operand} {n : Int64}
    (law : ∀ left, op.eval left unit = some left)
    (evaluated : (Op.binary op x (.imm unit)).evaluate env = some n) :
    x.read env = some n := by
  obtain ⟨left, _, leftRead, rightRead, result⟩ := evaluate_binary evaluated
  cases rightRead
  rw [law left] at result
  rw [leftRead, result]

private theorem read_of_left_unit (op : BinOp) (unit : Int64) {x : Operand} {n : Int64}
    (law : ∀ right, op.eval unit right = some right)
    (evaluated : (Op.binary op (.imm unit) x).evaluate env = some n) :
    x.read env = some n := by
  obtain ⟨_, right, leftRead, rightRead, result⟩ := evaluate_binary evaluated
  cases leftRead
  rw [law right] at result
  rw [rightRead, result]

/-- Where an operation has a value, its simpler form has the same. -/
theorem evaluate_simplified {op simpler : Op} {n : Int64} (found : op.simplified? = some simpler)
    (evaluated : op.evaluate env = some n) :
    simpler.evaluate env = some n := by
  unfold simplified? at found
  split at found
  · cases found
    exact read_of_right_unit .add 0 (fun left => congrArg some (Int64.add_zero left)) evaluated
  · cases found
    exact read_of_left_unit .add 0 (fun right => congrArg some (Int64.zero_add right)) evaluated
  · cases found
    exact read_of_right_unit .sub 0 (fun left => congrArg some (Int64.sub_zero left)) evaluated
  · cases found
    exact read_of_right_unit .mul 1 (fun left => congrArg some (Int64.mul_one left)) evaluated
  · cases found
    exact read_of_left_unit .mul 1 (fun right => congrArg some (Int64.one_mul right)) evaluated
  · cases found
    obtain ⟨left, right, _, rightRead, result⟩ := evaluate_binary evaluated
    have zero : right = 0 := (Option.some.inj rightRead).symm
    rw [zero, BinOp.eval, Int64.mul_zero] at result
    exact result
  · cases found
    obtain ⟨left, right, leftRead, _, result⟩ := evaluate_binary evaluated
    have zero : left = 0 := (Option.some.inj leftRead).symm
    rw [zero, BinOp.eval, Int64.zero_mul] at result
    exact result
  · split at found
    · rename_i a b same
      cases found
      obtain ⟨left, right, leftRead, rightRead, result⟩ := evaluate_binary evaluated
      have equal : left = right := by
        rw [same] at leftRead
        exact Option.some.inj (leftRead.symm.trans rightRead)
      rw [equal, BinOp.eval, Int64.sub_self] at result
      exact result
    · cases found
  · cases found

/-- Only an operation on two operands has a simpler form: one of the operands, or zero. -/
theorem simplified?_cases {op simpler : Op} (found : op.simplified? = some simpler) :
    ∃ kind lhs rhs, op = .binary kind lhs rhs ∧
      (simpler = .copy lhs ∨ simpler = .copy rhs ∨ simpler = .const 0) := by
  unfold simplified? at found
  split at found <;> (try split at found) <;> cases found <;> exact ⟨_, _, _, rfl, by simp⟩

theorem operands_simplified {op simpler : Op} (found : op.simplified? = some simpler) :
    simpler.operands.Sublist op.operands := by
  obtain ⟨kind, lhs, rhs, rfl, rfl | rfl | rfl⟩ := simplified?_cases found
  · exact (List.nil_sublist [rhs]).cons_cons lhs
  · exact (List.Sublist.refl [rhs]).cons lhs
  · exact List.nil_sublist _

end Op

theorem Inst.kept_simplify (inst : Inst) : inst.Kept (fun _ => True) inst.simplify where
  dest := rfl
  value env n _ evaluated := by
    unfold Inst.simplify
    cases found : inst.op.simplified? with
    | none => exact evaluated
    | some simpler => exact Op.evaluate_simplified found evaluated
  holds _ _ _ _ := trivial

theorem Function.refines_simplifyOps (function : Function) :
    function.Refines function.simplifyOps := by
  have simulates : ∀ block ∈ function.blocks,
      block.Simulates (fun env other => other = env ∧ True) block.simplifyOps := by
    intro block _
    exact Block.simulates_map rfl (fun inst _ => inst.kept_simplify) fun _ _ _ followed => followed
  exact refines_mapBlocks (fun _ => rfl) simulates fun _ => ⟨rfl, trivial⟩

theorem Function.definitions_simplifyOps (function : Function) :
    function.simplifyOps.definitions = function.definitions := by
  apply definitions_mapBlocks
  intro block
  simp [Block.simplifyOps, Inst.simplify, Function.comp_def]

/-! ## Branches -/

/-- Only a branch has a known target, and it is one of its two. -/
theorem Terminator.eq_br_of_knownTarget? {term : Terminator} {target : String}
    (known : term.knownTarget? = some target) :
    ∃ condition thenLabel elseLabel, term = .br condition thenLabel elseLabel ∧
      (target = thenLabel ∨ target = elseLabel) := by
  unfold knownTarget? at known
  split at known
  · rename_i n thenLabel elseLabel
    refine ⟨.imm n, thenLabel, elseLabel, rfl, ?_⟩
    rw [← Option.some.inj known]
    exact ite_eq_or_eq _ _ _
  · rename_i id thenLabel elseLabel
    split at known
    · exact ⟨.value id, thenLabel, elseLabel, rfl, .inl (Option.some.inj known).symm⟩
    · cases known
  · cases known

/-- Where a terminator leads, its simpler form leads too. -/
theorem Terminator.follow_simplify {term : Terminator} {env : Environment} {control : Control}
    (followed : term.follow env = some control) :
    term.simplify.follow env = some control := by
  unfold simplify
  cases known : term.knownTarget? with
  | none => exact followed
  | some target =>
      unfold knownTarget? at known
      split at known
      · cases known
        exact followed
      · split at known
        · rename_i same
          cases known
          obtain ⟨n, _, rfl⟩ := Option.map_eq_some_iff.1 followed
          simp [follow, same]
        · cases known
      · cases known

theorem Function.definitions_simplifyBranches (function : Function) :
    function.simplifyBranches.definitions = function.definitions :=
  definitions_mapBlocks fun _ => rfl

private theorem Inst.kept_self (inst : Inst) : inst.Kept (fun _ => True) (id inst) where
  dest := rfl
  value _ _ _ evaluated := evaluated
  holds _ _ _ _ := trivial

theorem Function.refines_simplifyBranches (function : Function) :
    function.Refines function.simplifyBranches := by
  have simulates : ∀ block ∈ function.blocks,
      block.Simulates (fun env other => other = env ∧ True) block.simplifyBranch := by
    intro block _
    exact Block.simulates_map (List.map_id _).symm (fun inst _ => inst.kept_self)
      fun _ _ _ followed => Terminator.follow_simplify followed
  exact refines_mapBlocks (fun _ => rfl) simulates fun _ => ⟨rfl, trivial⟩

end PassScheduler
