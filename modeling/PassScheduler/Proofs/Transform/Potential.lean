import Mathlib.Data.Bool.Basic
import PassScheduler.Proofs.Transform.Simplification

/-!
Contract: whatever a transformation changes becomes lighter, and it reports a change iff there is
one.

The transformations feed each other: a simpler operation can be a constant, a constant makes a
branch known, and both leave values that nobody needs. One measure goes down with all of them. It
counts instructions, what is left to compute in them, the values that are used and the branches.
It also settles what a report is worth. Edits that follow each other could undo one another and
still report that they changed something, but not if each of them makes the code lighter.

Owns:
- the potential of a program, and that it is a sum over functions, blocks and instructions;
- that every transformation leaves a function as it is and reports nothing, or lowers its potential
  and reports a change;
- the report of every transformation as the inequality of two functions.

Does not own: in which order the transformations are applied.
-/

namespace PassScheduler

/-! ## The measure -/

def Op.isBinary : Op → Bool
  | .binary _ _ _ => true
  | _ => false

def Op.isCopy : Op → Bool
  | .copy _ => true
  | _ => false

def Terminator.isBranch : Terminator → Bool
  | .br _ _ _ => true
  | _ => false

/-- What an instruction contributes to the potential: itself, what is left to compute in it and the
values that it uses. -/
def Inst.potential (inst : Inst) : Nat :=
  2 * inst.op.isBinary.toNat + inst.op.isCopy.toNat + (valuesIn inst.op.operands).length + 1

def Terminator.potential (term : Terminator) : Nat :=
  (valuesIn term.operands).length + term.isBranch.toNat

def Block.potential (block : Block) : Nat :=
  totalWeight Inst.potential block.insts + block.term.potential

def Function.potential (function : Function) : Nat :=
  totalWeight Block.potential function.blocks

namespace Program

def insts (program : Program) : List Inst :=
  program.functions.flatMap Function.insts

def terms (program : Program) : List Terminator :=
  program.functions.flatMap fun function => function.blocks.map Block.term

/-- Every operand of the program, those of instructions before those of terminators. -/
def operands (program : Program) : List Operand :=
  program.insts.flatMap (fun inst => inst.op.operands) ++
    program.terms.flatMap Terminator.operands

/-- Twice the operations on two operands, the copies, the values among all operands, the branches
and the instructions of a program. -/
def potential (program : Program) : Nat :=
  2 * program.insts.countP (fun inst => inst.op.isBinary) +
    program.insts.countP (fun inst => inst.op.isCopy) +
    (valuesIn program.operands).length +
    program.terms.countP Terminator.isBranch +
    program.insts.length

end Program

section TotalWeight

variable {α β : Type} {weight : α → Nat}

theorem totalWeight_append (first second : List α) :
    totalWeight weight (first ++ second) =
      totalWeight weight first + totalWeight weight second := by
  induction first with
  | nil => simp [totalWeight]
  | cons element rest inductionHypothesis =>
      simp only [List.cons_append, totalWeight, inductionHypothesis]
      omega

theorem totalWeight_flatMap (parts : β → List α) (elements : List β) :
    totalWeight weight (elements.flatMap parts) =
      totalWeight (fun element => totalWeight weight (parts element)) elements := by
  induction elements with
  | nil => rfl
  | cons element rest inductionHypothesis =>
      simp only [List.flatMap_cons, totalWeight_append, totalWeight, inductionHypothesis]

theorem totalWeight_map (part : β → α) (elements : List β) :
    totalWeight weight (elements.map part) =
      totalWeight (fun element => weight (part element)) elements := by
  induction elements with
  | nil => rfl
  | cons element rest inductionHypothesis =>
      simp only [List.map_cons, totalWeight, inductionHypothesis]

theorem totalWeight_add (first second : α → Nat) (elements : List α) :
    totalWeight (fun element => first element + second element) elements =
      totalWeight first elements + totalWeight second elements := by
  induction elements with
  | nil => rfl
  | cons element rest inductionHypothesis =>
      simp only [totalWeight, inductionHypothesis]
      omega

end TotalWeight

theorem length_valuesIn_append (first second : List Operand) :
    (valuesIn (first ++ second)).length =
      (valuesIn first).length + (valuesIn second).length := by
  simp [valuesIn]

theorem totalWeight_instPotential (insts : List Inst) :
    totalWeight Inst.potential insts =
      2 * insts.countP (fun inst => inst.op.isBinary) +
        insts.countP (fun inst => inst.op.isCopy) +
        (valuesIn (insts.flatMap fun inst => inst.op.operands)).length + insts.length := by
  induction insts with
  | nil => rfl
  | cons inst rest inductionHypothesis =>
      simp only [totalWeight, inductionHypothesis, Inst.potential, List.countP_cons,
        List.flatMap_cons, length_valuesIn_append, List.length_cons]
      cases inst.op.isBinary <;> cases inst.op.isCopy <;> simp <;> omega

theorem totalWeight_termPotential (terms : List Terminator) :
    totalWeight Terminator.potential terms =
      (valuesIn (terms.flatMap Terminator.operands)).length +
        terms.countP Terminator.isBranch := by
  induction terms with
  | nil => rfl
  | cons term rest inductionHypothesis =>
      simp only [totalWeight, inductionHypothesis, Terminator.potential, List.countP_cons,
        List.flatMap_cons, length_valuesIn_append]
      cases term.isBranch <;> simp <;> omega

/-- The potential of a program is that of its functions. -/
theorem Program.potential_eq (program : Program) :
    program.potential = totalWeight Function.potential program.functions := by
  have functions : totalWeight Function.potential program.functions =
      totalWeight Inst.potential program.insts +
        totalWeight Terminator.potential program.terms := by
    unfold Function.potential Block.potential insts terms Function.insts
    simp only [totalWeight_add, totalWeight_flatMap, totalWeight_map]
  rw [functions, totalWeight_instPotential, totalWeight_termPotential]
  unfold potential operands
  rw [length_valuesIn_append]
  omega

/-! ## Changes -/

/-- Every element that is left out takes at least one off the weight. -/
theorem totalWeight_filter_add_le {α : Type} {weight : α → Nat}
    (positive : ∀ element, 0 < weight element) (keep : α → Bool) (elements : List α) :
    totalWeight weight (elements.filter keep) + elements.length ≤
      totalWeight weight elements + (elements.filter keep).length := by
  induction elements with
  | nil => exact Nat.le_refl _
  | cons first rest inductionHypothesis =>
      have heavy := positive first
      cases kept : keep first with
      | true =>
          simp only [List.filter_cons_of_pos kept, totalWeight, List.length_cons]
          omega
      | false =>
          simp only [List.filter_cons_of_neg (Bool.eq_false_iff.1 kept), totalWeight,
            List.length_cons]
          omega

namespace Lightens

variable {α : Type} {weight : α → Nat}

theorem retain (positive : ∀ element, 0 < weight element) (keep : α → Bool) :
    Lightens (totalWeight weight) (Edited.retain keep) := by
  intro elements
  have weights := totalWeight_filter_add_le positive keep elements
  have shorter := elements.length_filter_le keep
  by_cases sameLength : (elements.filter keep).length = elements.length
  · have same := List.filter_eq_self.2 (List.length_filter_eq_length_iff.1 sameLength)
    exact .inl (by simp only [Edited.retain, same, ne_eq, not_true_eq_false, decide_false]; rfl)
  · refine .inr ⟨decide_eq_true sameLength, ?_⟩
    show totalWeight weight (elements.filter keep) < totalWeight weight elements
    omega

/-- An edit that makes an element lighter in one respect and not heavier in another makes it lighter
on the whole. -/
theorem add {first second : α → Nat} {edit : α → Edited α} (lightens : Lightens first edit)
    (notHeavier : ∀ element, second (edit element).value ≤ second element) :
    Lightens (fun element => first element + second element) edit := by
  intro element
  rcases lightens element with same | ⟨changed, lighter⟩
  · exact .inl same
  · exact .inr ⟨changed, Nat.add_lt_add_of_lt_of_le lighter (notHeavier element)⟩

end Lightens

/-! ## Instructions and terminators -/

theorem Inst.potential_eq (inst : Inst) :
    inst.potential = inst.op.weight + (inst.op.isBinary.toNat + 1) := by
  unfold Inst.potential
  cases inst.op with
  | const n => rfl
  | copy source =>
      simp only [Op.weight, Op.isBinary, Op.isCopy, Bool.toNat_true, Bool.toNat_false]
  | binary op lhs rhs =>
      simp only [Op.weight, Op.isBinary, Op.isCopy, Bool.toNat_true, Bool.toNat_false]
      omega

theorem Op.isBinary_mapOperands (change : Operand → Operand) (op : Op) :
    (op.mapOperands change).isBinary = op.isBinary := by
  cases op <;> rfl

theorem Op.isBinary_of_fold {op : Op} (isBinary : op.fold.isBinary) : op.isBinary := by
  unfold fold at isBinary
  split at isBinary
  · cases isBinary
  · rfl
  · exact isBinary

theorem Edit.foldInst_lightens (known : ValueId → Option Int64) :
    Lightens Inst.potential (Inst.edit (foldOp known)) := by
  have sum : Inst.potential = fun inst => inst.op.weight + (inst.op.isBinary.toNat + 1) :=
    funext Inst.potential_eq
  rw [sum]
  apply (foldOp_lightens known).inst.add
  intro inst
  refine Nat.add_le_add_right (Bool.toNat_le_toNat fun isBinary => ?_) 1
  have folded : (foldOp known inst.op).value.isBinary := isBinary
  rw [value_foldOp] at folded
  rw [← Op.isBinary_mapOperands (Operand.substitute known) inst.op]
  exact Op.isBinary_of_fold folded

theorem Op.isBinary_of_simplified? {op simpler : Op} (found : op.simplified? = some simpler) :
    op.isBinary ∧ ¬ simpler.isBinary := by
  obtain ⟨kind, lhs, rhs, rfl, rfl | rfl | rfl⟩ := simplified?_cases found <;> exact ⟨rfl, nofun⟩

theorem Edit.simplifyInst_lightens : Lightens Inst.potential (Inst.edit simplifyOp) := by
  intro inst
  unfold Inst.edit simplifyOp
  cases found : inst.op.simplified? with
  | none => exact .inl rfl
  | some simpler =>
      refine .inr ⟨rfl, ?_⟩
      obtain ⟨wasBinary, notBinary⟩ := Op.isBinary_of_simplified? found
      have fewer : (valuesIn simpler.operands).length ≤ (valuesIn inst.op.operands).length :=
        ((Op.operands_simplified found).filterMap _).length_le
      have copies : simpler.isCopy.toNat ≤ 1 := Bool.toNat_le _
      simp only [Edited.value_bind, Edited.value_replaced, Edited.value_pure, Inst.potential,
        wasBinary, notBinary, Bool.toNat_true, Bool.toNat_false]
      omega

theorem Edit.substituteTerm_lightens (known : ValueId → Option Int64) :
    Lightens Terminator.potential (Terminator.editOperands (substitute known)) := by
  apply (term_substitute_lightens known).add
  intro term
  cases term <;> exact Nat.le_refl _

theorem Edit.simplifyTerm_lightens : Lightens Terminator.potential simplifyTerm := by
  intro term
  unfold simplifyTerm
  cases known : term.knownTarget? with
  | none => exact .inl rfl
  | some target =>
      obtain ⟨condition, thenLabel, elseLabel, rfl, _⟩ := Terminator.eq_br_of_knownTarget? known
      refine .inr ⟨rfl, ?_⟩
      show 0 < _ + 1
      exact Nat.succ_pos _

/-! ## Functions -/

namespace Edit

theorem foldRound_lightens_potential : Lightens Function.potential foldRound := by
  intro function
  have insts := (foldInst_lightens function.constantOf?).each
  exact (insts.block (substituteTerm_lightens function.constantOf?)).editBlocks function

theorem foldRounds_lightens (changed : Bool) (function : Function) :
    foldRounds changed function = ⟨function, changed⟩ ∨
      (foldRounds changed function).changed = true ∧
        (foldRounds changed function).value.potential < function.potential := by
  induction changed, function using foldRounds.induct with
  | case1 changed function round reports inductionHypothesis =>
      rw [foldRounds, if_pos reports]
      have lighter : round.value.potential < function.potential := by
        rcases foldRound_lightens_potential function with same | ⟨_, lighter⟩
        · rw [show round = pure function from same] at reports
          cases reports
        · exact lighter
      rcases inductionHypothesis with same | ⟨again, lighterAgain⟩
      · rw [same]
        exact .inr ⟨rfl, lighter⟩
      · exact .inr ⟨again, Nat.lt_trans lighterAgain lighter⟩
  | case2 changed function round silent =>
      rw [foldRounds, if_neg silent]
      rcases foldRound_lightens_potential function with same | ⟨reports, _⟩
      · exact .inl (by rw [same]; rfl)
      · exact absurd reports silent

theorem foldConstants_lightens : Lightens Function.potential foldConstants :=
  foldRounds_lightens false

theorem simplifyOps_lightens : Lightens Function.potential simplifyOps :=
  (simplifyInst_lightens.each.block (.pure _)).editBlocks

theorem simplifyBranches_lightens : Lightens Function.potential simplifyBranches :=
  (Lightens.block (.pure _) simplifyTerm_lightens).editBlocks

theorem dropDead_lightens (sets : LiveSets) :
    Lightens Function.potential (dropDead sets) := by
  intro function
  unfold dropDead
  cases sets.values? function.name with
  | none => exact .inl rfl
  | some live =>
      have positive : ∀ inst : Inst, 0 < inst.potential := fun _ => Nat.succ_pos _
      exact (Lightens.block (.retain positive _) (.pure _)).editBlocks function

/-! ## Reports -/

/-- An edit makes a change, and reports it iff there is one. -/
def Reports {α : Type} [DecidableEq α] (edit : α → Edited α) (change : α → α) : Prop :=
  ∀ element, edit element = ⟨change element, change element ≠ element⟩

theorem reports_of_lightens {α : Type} [DecidableEq α] {weight : α → Nat} {edit : α → Edited α}
    {change : α → α} (lightens : Lightens weight edit)
    (value : ∀ element, (edit element).value = change element) :
    Reports edit change := by
  intro element
  have exact : (edit element).changed = decide (change element ≠ element) := by
    rw [Bool.eq_iff_iff, lightens.changed_iff, value, decide_eq_true_iff]
  rw [← exact, ← value]

/-- Elements edited in turn are reported together. -/
theorem Reports.each {α : Type} [DecidableEq α] {edit : α → Edited α} {change : α → α}
    (reports : Reports edit change) :
    Reports (Edited.each edit) (List.map change) := by
  intro elements
  induction elements with
  | nil => rfl
  | cons first rest inductionHypothesis =>
      rw [Edited.each, reports first, inductionHypothesis]
      simp [pure, bind]

theorem foldConstants_reports : Reports foldConstants Function.foldConstants :=
  reports_of_lightens foldConstants_lightens fun function => by rw [foldConstants_eq_foldRound]

theorem simplifyBranches_reports : Reports simplifyBranches Function.simplifyBranches :=
  reports_of_lightens simplifyBranches_lightens value_simplifyBranches

theorem simplifyOps_reports : Reports simplifyOps Function.simplifyOps :=
  reports_of_lightens simplifyOps_lightens value_simplifyOps

theorem dropDead_reports (sets : LiveSets) : Reports (dropDead sets) (Function.dropDead sets) :=
  reports_of_lightens (dropDead_lightens sets) (value_dropDead sets)

end Edit

end PassScheduler
