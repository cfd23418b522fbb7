import PassScheduler.Proofs.Analysis.Liveness
import PassScheduler.Proofs.Transform.Effect

/-!
Contract: dropping what is not live does what the original does, where no value is defined twice.

The original binds more values than the shorter function does, but both bind live values alike, and
no other value is ever read. An instruction that is dropped may be one on which the original is
stuck.

Owns: agreement of environments on live values, and that `dropDead` refines a function whose live
values are the kept ones.

Does not own: whether the kept live values are those of the function as it is.
-/

namespace PassScheduler

/-- Two environments bind live values alike. -/
def Agree (live : List ValueId) (env other : Environment) : Prop :=
  ∀ id ∈ live, other id = env id

namespace Agree

variable {live : List ValueId} {env other : Environment}

theorem set_both (agree : Agree live env other) (id : ValueId) (n : Int64) :
    Agree live (env.set id n) (other.set id n) := by
  intro value isLive
  by_cases same : value = id
  · rw [same, Environment.set_self, Environment.set_self]
  · rw [Environment.set_of_ne env same, Environment.set_of_ne other same]
    exact agree value isLive

theorem set_dead (agree : Agree live env other) {id : ValueId} (dead : id ∉ live) (n : Int64) :
    Agree live (env.set id n) other := by
  intro value isLive
  have distinct : value ≠ id := by
    rintro rfl
    exact dead isLive
  rw [Environment.set_of_ne env distinct]
  exact agree value isLive

theorem read (agree : Agree live env other) {operand : Operand}
    (isLive : ∀ id ∈ valuesIn [operand], id ∈ live) :
    operand.read other = operand.read env := by
  cases operand with
  | imm n => rfl
  | value id => exact agree id (isLive id List.mem_cons_self)

theorem evaluate (agree : Agree live env other) {op : Op}
    (isLive : ∀ id ∈ valuesIn op.operands, id ∈ live) :
    op.evaluate other = op.evaluate env := by
  cases op with
  | const n => rfl
  | copy source => exact agree.read isLive
  | binary op lhs rhs =>
      have both : ∀ id, id ∈ valuesIn [lhs] ∨ id ∈ valuesIn [rhs] → id ∈ live := by
        intro id used
        exact isLive id (mem_valuesIn_append.2 used)
      have left := agree.read fun id used => both id (.inl used)
      have right := agree.read fun id used => both id (.inr used)
      simp only [Op.evaluate, left, right]

theorem follow (agree : Agree live env other) {term : Terminator}
    (isLive : ∀ id ∈ valuesIn term.operands, id ∈ live) :
    term.follow other = term.follow env := by
  cases term with
  | jmp target => rfl
  | ret result => simp only [Terminator.follow, agree.read isLive]
  | br condition thenLabel elseLabel => simp only [Terminator.follow, agree.read isLive]

/-- Without the instructions whose destination is not live, a run goes on and agrees. -/
theorem runInsts_filter {insts : List Inst}
    (closed : ∀ inst ∈ insts, inst.dest ∈ live → ∀ id ∈ valuesIn inst.op.operands, id ∈ live)
    (agree : Agree live env other) {after : Environment} (ran : runInsts insts env = some after) :
    ∃ otherAfter, runInsts (insts.filter fun inst => live.contains inst.dest) other =
      some otherAfter ∧ Agree live after otherAfter := by
  induction insts generalizing env other with
  | nil =>
      cases ran
      exact ⟨other, rfl, agree⟩
  | cons inst rest inductionHypothesis =>
      obtain ⟨n, evaluated, restRan⟩ := Option.bind_eq_some_iff.1 ran
      have restClosed : ∀ inst ∈ rest, inst.dest ∈ live → ∀ id ∈ valuesIn inst.op.operands,
          id ∈ live :=
        fun later member => closed later (List.mem_cons_of_mem inst member)
      by_cases isLive : inst.dest ∈ live
      · have same := agree.evaluate (closed inst List.mem_cons_self isLive)
        obtain ⟨otherAfter, otherRan, agreeAfter⟩ :=
          inductionHypothesis restClosed (agree.set_both inst.dest n) restRan
        refine ⟨otherAfter, ?_, agreeAfter⟩
        rw [List.filter_cons_of_pos (by simpa using isLive), runInsts, same, evaluated]
        exact otherRan
      · rw [List.filter_cons_of_neg (by simpa using isLive)]
        exact inductionHypothesis restClosed (agree.set_dead isLive n) restRan

end Agree

namespace Function

variable {function : Function} {sets : LiveSets}

theorem dropDead_eq (known : sets.values? function.name = some function.liveValues) :
    function.dropDead sets = function.mapBlocks (Block.keepLive function.liveValues) := by
  unfold dropDead
  rw [known]

theorem refines_dropDead (nodup : function.definitions.Nodup)
    (known : sets.values? function.name = some function.liveValues) :
    function.Refines (function.dropDead sets) := by
  have simulates : ∀ block ∈ function.blocks,
      block.Simulates (Agree function.liveValues) (block.keepLive function.liveValues) := by
    intro block isBlock env other agree after control ran
    obtain ⟨instsRan, followed⟩ := Block.run_eq_some.1 ran
    have closed : ∀ inst ∈ block.insts, inst.dest ∈ function.liveValues →
        ∀ id ∈ valuesIn inst.op.operands, id ∈ function.liveValues :=
      fun inst member isLive id used => live_of_inst nodup (mem_insts isBlock member) isLive used
    obtain ⟨otherAfter, otherRan, agreeAfter⟩ := agree.runInsts_filter closed instsRan
    have otherFollowed := agreeAfter.follow fun id used => live_of_term isBlock used
    exact ⟨otherAfter, Block.run_eq_some.2 ⟨otherRan, otherFollowed.trans followed⟩, agreeAfter⟩
  rw [dropDead_eq known]
  exact refines_mapBlocks (fun _ => rfl) simulates fun _ _ _ => rfl

theorem name_dropDead (function : Function) (sets : LiveSets) :
    (function.dropDead sets).name = function.name := by
  unfold dropDead
  split <;> rfl

private theorem insts_sublist {change : Block → Block} (blocks : List Block)
    (fewer : ∀ block, (change block).insts.Sublist block.insts) :
    ((blocks.map change).flatMap Block.insts).Sublist (blocks.flatMap Block.insts) := by
  induction blocks with
  | nil => exact List.Sublist.slnil
  | cons block rest inductionHypothesis =>
      rw [List.map_cons, List.flatMap_cons, List.flatMap_cons]
      exact (fewer block).append inductionHypothesis

/-- Dropping instructions drops definitions and adds none. -/
theorem definitions_dropDead (function : Function) (sets : LiveSets) :
    (function.dropDead sets).definitions.Sublist function.definitions := by
  unfold dropDead
  split
  · exact List.Sublist.refl _
  · rename_i live _
    have keeps : ∀ block : Block, (block.keepLive live).insts.Sublist block.insts :=
      fun _ => List.filter_sublist
    have fewer := insts_sublist function.blocks keeps
    exact List.Sublist.append_left (fewer.map Inst.dest) function.params

end Function

end PassScheduler
