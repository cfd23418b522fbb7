import PassScheduler.Analysis.Verification

/-!
Contract: what is known of functions in which no broken rule is found.

Owns: the rules that a function has to keep on its own, that none is found broken iff all of them
are kept, and that the names of functions without broken rules are not repeated.

Does not own: which of several broken rules is found first.
-/

namespace PassScheduler

theorem firstViolation?_eq_none {names : List String} {functions : List Function} :
    firstViolation? names functions = none ↔
      (functions.map Function.name).Nodup ∧ (∀ function ∈ functions, function.name ∉ names) ∧
        ∀ function ∈ functions, function.violation? = none := by
  induction functions generalizing names with
  | nil => simp [firstViolation?]
  | cons first rest inductionHypothesis =>
      unfold firstViolation?
      by_cases repeated : first.name ∈ names
      · simp [repeated]
      · cases broken : first.violation? with
        | some violation => simp [repeated, broken]
        | none =>
            simp only [repeated, if_false, broken, inductionHypothesis, List.map_cons,
              List.nodup_cons, List.mem_map, List.mem_cons, forall_eq_or_imp, not_or,
              not_false_eq_true, true_and]
            constructor
            · rintro ⟨nodup, fresh, unbroken⟩
              refine ⟨⟨?_, nodup⟩, fun function member => (fresh function member).2, unbroken⟩
              rintro ⟨function, member, sameName⟩
              exact (fresh function member).1 sameName
            · rintro ⟨⟨notLater, nodup⟩, fresh, unbroken⟩
              refine ⟨nodup, fun function member => ⟨?_, fresh function member⟩, unbroken⟩
              exact fun sameName => notLater ⟨function, member, sameName⟩

theorem Block.violation?_eq_none {definitions : List ValueId} {labels : List String}
    {block : Block} :
    block.violation? definitions labels = none ↔
      (∀ id ∈ valuesIn block.operands, id ∈ definitions) ∧
        ∀ target ∈ block.term.successors, target ∈ labels := by
  unfold violation?
  cases undefined : (valuesIn block.operands).find? (· ∉ definitions) with
  | some id =>
      have isUsed := List.mem_of_find?_eq_some undefined
      have isUndefined : id ∉ definitions := by simpa using List.find?_some undefined
      simp only [reduceCtorEq, false_iff]
      exact fun keeps => isUndefined (keeps.1 id isUsed)
  | none =>
      have defined : ∀ id ∈ valuesIn block.operands, id ∈ definitions := by
        simpa using List.find?_eq_none.1 undefined
      simpa using fun _ => defined

/-- The rules that a function has to keep on its own. -/
structure Function.WellFormed (function : Function) : Prop where
  nonempty : function.blocks ≠ []
  labels : function.labels.Nodup
  definitions : function.definitions.Nodup
  uses : ∀ block ∈ function.blocks, ∀ id ∈ valuesIn block.operands, id ∈ function.definitions
  targets : ∀ block ∈ function.blocks, ∀ target ∈ block.term.successors, target ∈ function.labels

theorem Function.violation?_eq_none {function : Function} :
    function.violation? = none ↔ function.WellFormed := by
  have rules : function.violation? = none ↔
      function.blocks ≠ [] ∧ firstRepeat? [] function.labels = none ∧
        firstRepeat? [] function.definitions = none ∧
          ∀ block ∈ function.blocks,
            block.violation? function.definitions function.labels = none := by
    unfold violation?
    split
    · simp_all
    · split
      · simp_all
      · split <;> simp_all
  simp only [rules, firstRepeat?_eq_none_iff, Block.violation?_eq_none]
  constructor
  · rintro ⟨nonempty, labels, definitions, blocks⟩
    exact ⟨nonempty, labels, definitions, fun block isBlock => (blocks block isBlock).1,
      fun block isBlock => (blocks block isBlock).2⟩
  · rintro ⟨nonempty, labels, definitions, uses, targets⟩
    exact ⟨nonempty, labels, definitions,
      fun block isBlock => ⟨uses block isBlock, targets block isBlock⟩⟩

theorem Function.definitions_nodup {function : Function} (unbroken : function.violation? = none) :
    function.definitions.Nodup :=
  (violation?_eq_none.1 unbroken).definitions

end PassScheduler
