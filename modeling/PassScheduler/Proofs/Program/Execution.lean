import Mathlib.Data.List.Nodup
import PassScheduler.Program.Function

/-!
Contract: what a function does when it is run.

A run starts at the first block with the parameters bound to arguments, executes instructions in
order and follows terminators. It is stuck where an operand is unbound, an operation has no value,
or a label names no block.

Owns:
- environments, the evaluation of operands and operations, and the run of a block;
- `Returns`, which says that a finite run ends with a value;
- refinement of functions, and how it follows from a simulation block by block;
- what follows for instructions if no value is defined twice.

Does not own: any particular change of a function.
-/

namespace PassScheduler

/-- The values that are bound during a run. -/
abbrev Environment := ValueId → Option Int64

namespace Environment

def empty : Environment :=
  fun _ => none

def set (env : Environment) (id : ValueId) (n : Int64) : Environment :=
  fun other => if other = id then some n else env other

/-- Binds parameters to arguments, as far as both go. -/
def bind : List ValueId → List Int64 → Environment
  | id :: params, n :: arguments => (bind params arguments).set id n
  | _, _ => empty

theorem set_self (env : Environment) (id : ValueId) (n : Int64) : env.set id n id = some n :=
  if_pos rfl

theorem set_of_ne (env : Environment) {id other : ValueId} (distinct : other ≠ id) (n : Int64) :
    env.set id n other = env other :=
  if_neg distinct

/-- Only parameters are bound when a run starts. -/
theorem mem_of_bind {params : List ValueId} {arguments : List Int64} {id : ValueId} {n : Int64}
    (bound : bind params arguments id = some n) :
    id ∈ params := by
  induction params generalizing arguments with
  | nil => cases bound
  | cons param params inductionHypothesis =>
      cases arguments with
      | nil => cases bound
      | cons first arguments =>
          by_cases same : id = param
          · rw [same]
            exact List.mem_cons_self
          · rw [bind, set_of_ne _ same] at bound
            exact List.mem_cons_of_mem param (inductionHypothesis bound)

end Environment

def Operand.read (env : Environment) : Operand → Option Int64
  | .value id => env id
  | .imm n => some n

def Op.evaluate (env : Environment) : Op → Option Int64
  | .const n => some n
  | .copy source => source.read env
  | .binary op lhs rhs =>
      (lhs.read env).bind fun left => (rhs.read env).bind fun right => op.eval left right

/-- Executes instructions in order, each binding its destination. -/
def runInsts : List Inst → Environment → Option Environment
  | [], env => some env
  | inst :: rest, env => (inst.op.evaluate env).bind fun n => runInsts rest (env.set inst.dest n)

/-- Where a terminator leads. -/
inductive Control where
  | returned (value : Int64)
  | jumped (label : String)
deriving DecidableEq, Repr

def Terminator.follow (env : Environment) : Terminator → Option Control
  | .ret result => (result.read env).map .returned
  | .jmp target => some (.jumped target)
  | .br condition thenLabel elseLabel =>
      (condition.read env).map fun n => .jumped (if n ≠ 0 then thenLabel else elseLabel)

def Block.run (block : Block) (env : Environment) : Option (Environment × Control) :=
  (runInsts block.insts env).bind fun after =>
    (block.term.follow after).map fun control => (after, control)

theorem Block.run_eq_some {block : Block} {env after : Environment} {control : Control} :
    block.run env = some (after, control) ↔
      runInsts block.insts env = some after ∧ block.term.follow after = some control := by
  simp only [Block.run, Option.bind_eq_some_iff, Option.map_eq_some_iff, Prod.mk.injEq]
  constructor
  · rintro ⟨_, ran, _, followed, rfl, rfl⟩
    exact ⟨ran, followed⟩
  · rintro ⟨ran, followed⟩
    exact ⟨after, ran, control, followed, rfl, rfl⟩

namespace Function

/-- A finite run from the start of a block to a return. -/
inductive Finishes (function : Function) : Block → Environment → Int64 → Prop where
  | returned {block : Block} {env after : Environment} {value : Int64}
      (ran : block.run env = some (after, .returned value)) :
      Finishes function block env value
  | jumped {block next : Block} {env after : Environment} {label : String} {value : Int64}
      (ran : block.run env = some (after, .jumped label))
      (found : function.block? label = some next) (rest : Finishes function next after value) :
      Finishes function block env value

/-- A function returns a value on some arguments. -/
def Returns (function : Function) (arguments : List Int64) (value : Int64) : Prop :=
  ∃ entry, function.blocks.head? = some entry ∧
    Finishes function entry (.bind function.params arguments) value

/-- Whatever one function returns the other returns too. -/
def Refines (original refined : Function) : Prop :=
  ∀ arguments value, original.Returns arguments value → refined.Returns arguments value

theorem Refines.refl (function : Function) : function.Refines function :=
  fun _ _ returns => returns

theorem Refines.trans {first second third : Function} (left : first.Refines second)
    (right : second.Refines third) :
    first.Refines third :=
  fun arguments value returns => right arguments value (left arguments value returns)

end Function

/-! ## Simulation -/

/-- From related environments the second block does what the first does, and the environments are
related again. -/
def Block.Simulates (related : Environment → Environment → Prop) (first second : Block) : Prop :=
  ∀ env other, related env other → ∀ after control, first.run env = some (after, control) →
    ∃ otherAfter, second.run other = some (otherAfter, control) ∧ related after otherAfter

namespace Function

variable {function : Function} {change : Block → Block}
variable {related : Environment → Environment → Prop}

theorem mem_of_block? {label : String} {block : Block}
    (found : function.block? label = some block) :
    block ∈ function.blocks :=
  List.mem_of_find?_eq_some found

theorem block?_mapBlocks (labels : ∀ block, (change block).label = block.label) (label : String) :
    (function.mapBlocks change).block? label = (function.block? label).map change := by
  unfold block? mapBlocks
  rw [List.find?_map]
  simp only [Function.comp_def, labels]

private theorem Finishes.simulated (labels : ∀ block, (change block).label = block.label)
    (simulates : ∀ block ∈ function.blocks, block.Simulates related (change block))
    {block : Block} {env other : Environment} {value : Int64}
    (finishes : Finishes function block env value) (member : block ∈ function.blocks)
    (areRelated : related env other) :
    Finishes (function.mapBlocks change) (change block) other value := by
  induction finishes generalizing other with
  | @returned block env after value ran =>
      obtain ⟨otherAfter, otherRan, _⟩ := simulates block member env other areRelated _ _ ran
      exact .returned otherRan
  | @jumped block next env after label value ran found _ inductionHypothesis =>
      obtain ⟨otherAfter, otherRan, stillRelated⟩ :=
        simulates block member env other areRelated _ _ ran
      have otherFound : (function.mapBlocks change).block? label = some (change next) := by
        rw [block?_mapBlocks labels, found]
        rfl
      exact .jumped otherRan otherFound (inductionHypothesis (mem_of_block? found) stillRelated)

/-- A change that keeps labels refines a function if every changed block simulates its original. -/
theorem refines_mapBlocks (labels : ∀ block, (change block).label = block.label)
    (simulates : ∀ block ∈ function.blocks, block.Simulates related (change block))
    (start : ∀ arguments, related (.bind function.params arguments)
      (.bind function.params arguments)) :
    function.Refines (function.mapBlocks change) := by
  rintro arguments value ⟨entry, isFirst, finishes⟩
  have member : entry ∈ function.blocks := List.mem_of_mem_head? isFirst
  refine ⟨change entry, ?_, finishes.simulated labels simulates member (start arguments)⟩
  show (function.blocks.map change).head? = some (change entry)
  rw [List.head?_map, isFirst]
  rfl

end Function

/-! ## Values that are defined once -/

namespace Function

variable {function : Function}

theorem mem_insts {block : Block} {inst : Inst} (isBlock : block ∈ function.blocks)
    (member : inst ∈ block.insts) :
    inst ∈ function.insts :=
  List.mem_flatMap.2 ⟨block, isBlock, member⟩

theorem eq_of_dest_eq (nodup : function.definitions.Nodup) {first second : Inst}
    (isFirst : first ∈ function.insts) (isSecond : second ∈ function.insts)
    (same : first.dest = second.dest) :
    first = second :=
  List.inj_on_of_nodup_map (List.nodup_append.1 nodup).2.1 isFirst isSecond same

/-- A change that keeps the destinations of every block keeps the definitions. -/
theorem definitions_mapBlocks {change : Block → Block}
    (dests : ∀ block, (change block).insts.map Inst.dest = block.insts.map Inst.dest) :
    (function.mapBlocks change).definitions = function.definitions := by
  unfold definitions insts mapBlocks
  rw [List.flatMap_map, List.map_flatMap, List.map_flatMap]
  simp only [dests]

theorem dest_notMem_params (nodup : function.definitions.Nodup) {inst : Inst}
    (member : inst ∈ function.insts) :
    inst.dest ∉ function.params := by
  intro isParam
  have isDest : inst.dest ∈ function.insts.map Inst.dest := List.mem_map_of_mem member
  exact (List.nodup_append.1 nodup).2.2 _ isParam _ isDest rfl

end Function

/-! ## Instruction by instruction -/

section

variable {holds : Environment → Prop} {changeInst : Inst → Inst}

/-- A change of an instruction that keeps its destination and, while `holds` does, its value. -/
structure Inst.Kept (holds : Environment → Prop) (inst changed : Inst) : Prop where
  dest : changed.dest = inst.dest
  value : ∀ env n, holds env → inst.op.evaluate env = some n → changed.op.evaluate env = some n
  holds : ∀ env n, holds env → inst.op.evaluate env = some n → holds (env.set inst.dest n)

theorem runInsts_map {insts : List Inst}
    (kept : ∀ inst ∈ insts, inst.Kept holds (changeInst inst)) {env after : Environment}
    (held : holds env) (ran : runInsts insts env = some after) :
    runInsts (insts.map changeInst) env = some after ∧ holds after := by
  induction insts generalizing env with
  | nil =>
      cases ran
      exact ⟨rfl, held⟩
  | cons inst rest inductionHypothesis =>
      obtain ⟨n, evaluated, restRan⟩ := Option.bind_eq_some_iff.1 ran
      have first := kept inst List.mem_cons_self
      have heldAfter := first.holds env n held evaluated
      obtain ⟨changedRan, heldLast⟩ := inductionHypothesis
        (fun other member => kept other (List.mem_cons_of_mem inst member)) heldAfter restRan
      refine ⟨?_, heldLast⟩
      rw [List.map_cons, runInsts, first.value env n held evaluated, first.dest]
      exact changedRan

/-- A block that is changed instruction by instruction simulates the original on the same
environment. -/
theorem Block.simulates_map {block changed : Block}
    (insts : changed.insts = block.insts.map changeInst)
    (kept : ∀ inst ∈ block.insts, inst.Kept holds (changeInst inst))
    (term : ∀ env control, holds env → block.term.follow env = some control →
      changed.term.follow env = some control) :
    block.Simulates (fun env other => other = env ∧ holds env) changed := by
  rintro env _ ⟨rfl, held⟩ after control ran
  obtain ⟨instsRan, followed⟩ := Block.run_eq_some.1 ran
  obtain ⟨changedRan, heldAfter⟩ := runInsts_map kept held instsRan
  refine ⟨after, Block.run_eq_some.2 ⟨?_, term after control heldAfter followed⟩, rfl, heldAfter⟩
  rw [insts]
  exact changedRan

end

end PassScheduler
