import PassScheduler.Analysis.Liveness
import PassScheduler.Proofs.Graph.Reachability
import PassScheduler.Proofs.Program.Execution

/-!
Contract: the live values of a function are what its terminators need.

Owns:
- the live values as those that can be reached from terminators through defining instructions;
- that they hold what terminators use, and what live instructions use if no value is defined
  twice;
- the live values that are kept for a function among others.

Does not own: what is done with instructions whose result is not live.
-/

open Relation (ReflTransGen)

namespace PassScheduler

theorem mem_valuesIn_append {operands more : List Operand} {id : ValueId} :
    id ∈ valuesIn (operands ++ more) ↔ id ∈ valuesIn operands ∨ id ∈ valuesIn more := by
  simp [valuesIn]

theorem mem_valuesIn_flatMap {α : Type} {elements : List α} {operands : α → List Operand}
    {id : ValueId} :
    id ∈ valuesIn (elements.flatMap operands) ↔
      ∃ element ∈ elements, id ∈ valuesIn (operands element) := by
  induction elements with
  | nil => simp [valuesIn]
  | cons first rest inductionHypothesis =>
      rw [List.flatMap_cons, mem_valuesIn_append, inductionHypothesis, List.exists_mem_cons_iff]

theorem Block.mem_valuesIn_operands {block : Block} {id : ValueId} :
    id ∈ valuesIn block.operands ↔
      (∃ inst ∈ block.insts, id ∈ valuesIn inst.op.operands) ∨
        id ∈ valuesIn block.term.operands := by
  unfold operands
  rw [mem_valuesIn_append, mem_valuesIn_flatMap]

namespace Function

variable {function : Function}

theorem mem_demandedValues {id : ValueId} :
    id ∈ function.demandedValues ↔
      ∃ block ∈ function.blocks, id ∈ valuesIn block.term.operands :=
  mem_valuesIn_flatMap

theorem mem_usedValues {id : ValueId} :
    id ∈ function.usedValues ↔ ∃ block ∈ function.blocks,
      (∃ inst ∈ block.insts, id ∈ valuesIn inst.op.operands) ∨
        id ∈ valuesIn block.term.operands := by
  unfold usedValues
  simp only [mem_valuesIn_flatMap, Block.mem_valuesIn_operands]

/-- What a value is computed from is used by the instruction that defines it last. -/
theorem exists_of_neededFor {id needed : ValueId} (isNeeded : needed ∈ function.neededFor id) :
    ∃ inst ∈ function.insts, inst.dest = id ∧ needed ∈ valuesIn inst.op.operands := by
  unfold neededFor definingOp? at isNeeded
  cases found : function.insts.reverse.find? fun inst => inst.dest = id with
  | none => simp [found] at isNeeded
  | some inst =>
      simp only [found, Option.map_some] at isNeeded
      have isDest := List.find?_some found
      have member := List.mem_reverse.1 (List.mem_of_find?_eq_some found)
      exact ⟨inst, member, of_decide_eq_true isDest, isNeeded⟩

theorem neededFor_eq (nodup : function.definitions.Nodup) {inst : Inst}
    (member : inst ∈ function.insts) :
    function.neededFor inst.dest = valuesIn inst.op.operands := by
  unfold neededFor definingOp?
  cases found : function.insts.reverse.find? fun other => other.dest = inst.dest with
  | none =>
      have absent := List.find?_eq_none.1 found inst (List.mem_reverse.2 member)
      simp at absent
  | some other =>
      have isOther := List.mem_reverse.1 (List.mem_of_find?_eq_some found)
      have sameDest : other.dest = inst.dest := by
        simpa using List.find?_some found
      rw [eq_of_dest_eq nodup isOther member sameDest]
      rfl

/-- The live values are what one reaches from the values of terminators. -/
theorem mem_liveValues {id : ValueId} :
    id ∈ function.liveValues ↔ ∃ start ∈ function.demandedValues,
      ReflTransGen (fun source target => target ∈ function.neededFor source) start id := by
  have closed : ∀ source, ∀ target ∈ function.neededFor source, target ∈ function.usedValues := by
    intro source target isNeeded
    obtain ⟨inst, member, _, used⟩ := exists_of_neededFor isNeeded
    obtain ⟨block, isBlock, inBlock⟩ := List.mem_flatMap.1 member
    exact mem_usedValues.2 ⟨block, isBlock, .inl ⟨inst, inBlock, used⟩⟩
  have demandedUsed : ∀ start ∈ function.demandedValues, start ∈ function.usedValues := by
    intro start isDemanded
    obtain ⟨block, isBlock, used⟩ := mem_demandedValues.1 isDemanded
    exact mem_usedValues.2 ⟨block, isBlock, .inr used⟩
  unfold liveValues
  rw [List.mem_mergeSort, Search.mem_reachable _ _ _ _ closed]
  constructor
  · rintro ⟨start, isDemanded, _, way⟩
    exact ⟨start, isDemanded, way⟩
  · rintro ⟨start, isDemanded, way⟩
    exact ⟨start, isDemanded, demandedUsed start isDemanded, way⟩

theorem live_of_term {block : Block} {id : ValueId} (isBlock : block ∈ function.blocks)
    (used : id ∈ valuesIn block.term.operands) :
    id ∈ function.liveValues :=
  mem_liveValues.2 ⟨id, mem_demandedValues.2 ⟨block, isBlock, used⟩, .refl⟩

theorem live_of_inst (nodup : function.definitions.Nodup) {inst : Inst} {id : ValueId}
    (member : inst ∈ function.insts) (live : inst.dest ∈ function.liveValues)
    (used : id ∈ valuesIn inst.op.operands) :
    id ∈ function.liveValues := by
  obtain ⟨start, isDemanded, way⟩ := mem_liveValues.1 live
  rw [← neededFor_eq nodup member] at used
  exact mem_liveValues.2 ⟨start, isDemanded, way.tail used⟩

end Function

/-- Where names are not repeated, the live values that are kept for a function are its own. -/
theorem LiveSets.values?_ofFunctions {functions : List Function}
    (names : (functions.map Function.name).Nodup) {function : Function}
    (member : function ∈ functions) :
    (LiveSets.ofFunctions functions).values? function.name = some function.liveValues := by
  unfold values? ofFunctions
  cases found : (functions.map fun other => (other.name, other.liveValues)).reverse.find?
      fun entry => entry.1 = function.name with
  | none =>
      have isEntry : (function.name, function.liveValues) ∈
          (functions.map fun other => (other.name, other.liveValues)).reverse :=
        List.mem_reverse.2 (List.mem_map.2 ⟨function, member, rfl⟩)
      have absent := List.find?_eq_none.1 found _ isEntry
      simp at absent
  | some entry =>
      have isEntry := List.mem_reverse.1 (List.mem_of_find?_eq_some found)
      obtain ⟨other, isOther, rfl⟩ := List.mem_map.1 isEntry
      have sameName : other.name = function.name := by
        simpa using List.find?_some found
      rw [List.inj_on_of_nodup_map names isOther member sameName]
      rfl

end PassScheduler
