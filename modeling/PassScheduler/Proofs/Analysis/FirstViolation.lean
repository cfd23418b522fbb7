import Mathlib.Data.List.Induction
import Mathlib.Data.List.Nodup
import PassScheduler.Pass.Standard
import PassScheduler.Proofs.Analysis.Verification

/-!
Contract: the broken rule that is reported is the first one.

The rules are looked at function by function, and in a function in the order in which they are
listed: its name, its blocks, their labels, its definitions, and then block by block its uses
before its targets. What comes first in that order is said here of the program alone.

Owns:
- what it means that a block, a function or a program breaks some rule first;
- that `verify` fails with exactly that rule, and that it succeeds iff all rules are kept;
- what `verify` leaves of a program.

Does not own: what a program without broken rules can be relied on for.
-/

namespace PassScheduler

/-! ## The first broken rule -/

/-- An element of a list that breaks a rule which everything before it keeps. -/
def FirstToBreak {α : Type} (keeps : α → Prop) (elements : List α) (element : α) : Prop :=
  ∃ before after, elements = before ++ element :: after ∧ (∀ earlier ∈ before, keeps earlier) ∧
    ¬ keeps element

/-- An element of a list that was there before, in a list that has no such element up to it. -/
def FirstToRepeat {α : Type} (elements : List α) (element : α) : Prop :=
  ∃ before after, elements = before ++ element :: after ∧ before.Nodup ∧ element ∈ before

/-- The rules that a block has to keep in a function with the given definitions and labels. -/
structure Block.WellFormed (definitions : List ValueId) (labels : List String) (block : Block) :
    Prop where
  uses : ∀ id ∈ valuesIn block.operands, id ∈ definitions
  targets : ∀ target ∈ block.term.successors, target ∈ labels

inductive Block.BreaksFirst (definitions : List ValueId) (labels : List String) (block : Block) :
    Violation → Prop where
  | undefinedValue {id : ValueId}
      (first : FirstToBreak (· ∈ definitions) (valuesIn block.operands) id) :
      BreaksFirst definitions labels block (.undefinedValue id block.label)
  | unknownTarget {target : String}
      (uses : ∀ id ∈ valuesIn block.operands, id ∈ definitions)
      (first : FirstToBreak (· ∈ labels) block.term.successors target) :
      BreaksFirst definitions labels block (.unknownTarget block.label target)

inductive Function.BreaksFirst (function : Function) : Violation → Prop where
  | noBlocks (empty : function.blocks = []) : BreaksFirst function .noBlocks
  | repeatedLabel {label : String} (nonempty : function.blocks ≠ [])
      (first : FirstToRepeat function.labels label) :
      BreaksFirst function (.repeatedLabel label)
  | repeatedValue {id : ValueId} (nonempty : function.blocks ≠ [])
      (labels : function.labels.Nodup) (first : FirstToRepeat function.definitions id) :
      BreaksFirst function (.repeatedValue id)
  | block {block : Block} {violation : Violation} (nonempty : function.blocks ≠ [])
      (labels : function.labels.Nodup) (definitions : function.definitions.Nodup)
      (first : FirstToBreak (Block.WellFormed function.definitions function.labels)
        function.blocks block)
      (breaks : block.BreaksFirst function.definitions function.labels violation) :
      BreaksFirst function violation

/-- The functions before some function have distinct names and keep all rules, and then that
function has one of their names, or another name and breaks a rule on its own. -/
inductive BreaksFirst (functions : List Function) : String → Violation → Prop where
  | repeatedFunction {before after : List Function} {function : Function}
      (split : functions = before ++ function :: after)
      (names : (before.map Function.name).Nodup) (kept : ∀ earlier ∈ before, earlier.WellFormed)
      (repeated : function.name ∈ before.map Function.name) :
      BreaksFirst functions function.name .repeatedFunction
  | own {before after : List Function} {function : Function} {violation : Violation}
      (split : functions = before ++ function :: after)
      (names : (before.map Function.name).Nodup) (kept : ∀ earlier ∈ before, earlier.WellFormed)
      (fresh : function.name ∉ before.map Function.name)
      (breaks : function.BreaksFirst violation) :
      BreaksFirst functions function.name violation

/-! ## Searches for it -/

theorem find?_notMem_eq_some {α : Type} [DecidableEq α] {known elements : List α} {element : α} :
    elements.find? (· ∉ known) = some element ↔ FirstToBreak (· ∈ known) elements element := by
  simp only [List.find?_eq_some_iff_append, FirstToBreak, decide_eq_true_eq, decide_not,
    Bool.not_not]
  constructor
  · rintro ⟨breaks, before, after, split, kept⟩
    exact ⟨before, after, split, kept, by simpa using breaks⟩
  · rintro ⟨before, after, split, kept, breaks⟩
    exact ⟨by simpa using breaks, before, after, split, kept⟩

theorem Block.violation?_eq_none_iff {definitions : List ValueId} {labels : List String}
    {block : Block} :
    block.violation? definitions labels = none ↔ block.WellFormed definitions labels :=
  violation?_eq_none.trans ⟨fun ⟨uses, targets⟩ => ⟨uses, targets⟩, fun ⟨uses, targets⟩ =>
    ⟨uses, targets⟩⟩

theorem Block.violation?_eq_some {definitions : List ValueId} {labels : List String}
    {block : Block} {violation : Violation} :
    block.violation? definitions labels = some violation ↔
      block.BreaksFirst definitions labels violation := by
  unfold violation?
  constructor
  · intro found
    cases undefined : (valuesIn block.operands).find? (· ∉ definitions) with
    | some id =>
        simp only [undefined, Option.some.injEq] at found
        subst found
        exact .undefinedValue (find?_notMem_eq_some.1 undefined)
    | none =>
        simp only [undefined, Option.map_eq_some_iff] at found
        obtain ⟨target, unknown, rfl⟩ := found
        have uses : ∀ id ∈ valuesIn block.operands, id ∈ definitions := by
          simpa using List.find?_eq_none.1 undefined
        exact .unknownTarget uses (find?_notMem_eq_some.1 unknown)
  · intro breaks
    cases breaks with
    | undefinedValue first => rw [find?_notMem_eq_some.2 first]
    | unknownTarget uses first =>
        have noneUndefined : (valuesIn block.operands).find? (· ∉ definitions) = none := by
          simpa using uses
        rw [noneUndefined, find?_notMem_eq_some.2 first]
        rfl

theorem Function.findSome?_violation? {function : Function} {violation : Violation} :
    function.blocks.findSome? (·.violation? function.definitions function.labels) =
        some violation ↔
      ∃ block, FirstToBreak (Block.WellFormed function.definitions function.labels)
          function.blocks block ∧
        block.BreaksFirst function.definitions function.labels violation := by
  simp only [List.findSome?_eq_some_iff, Block.violation?_eq_none_iff, Block.violation?_eq_some]
  constructor
  · rintro ⟨before, block, after, split, breaks, kept⟩
    refine ⟨block, ⟨before, after, split, kept, fun wellFormed => ?_⟩, breaks⟩
    rw [← Block.violation?_eq_some, Block.violation?_eq_none_iff.2 wellFormed] at breaks
    cases breaks
  · rintro ⟨block, ⟨before, after, split, kept, _⟩, breaks⟩
    exact ⟨before, block, after, split, breaks, kept⟩

theorem Function.violation?_eq_some {function : Function} {violation : Violation} :
    function.violation? = some violation ↔ function.BreaksFirst violation := by
  constructor
  · intro found
    unfold violation? at found
    split at found
    · rename_i empty
      cases found
      exact .noBlocks empty
    · rename_i nonempty
      split at found
      · rename_i label repeated
        cases found
        exact .repeatedLabel nonempty (firstRepeat?_eq_some_iff.1 repeated)
      · rename_i distinct
        have labels := (firstRepeat?_eq_none_iff _).1 distinct
        split at found
        · rename_i id repeated
          cases found
          exact .repeatedValue nonempty labels (firstRepeat?_eq_some_iff.1 repeated)
        · rename_i once
          have definitions := (firstRepeat?_eq_none_iff _).1 once
          obtain ⟨block, first, breaks⟩ := findSome?_violation?.1 found
          exact .block nonempty labels definitions first breaks
  · intro breaks
    cases breaks with
    | noBlocks empty => rw [violation?, if_pos empty]
    | repeatedLabel nonempty first =>
        rw [violation?, if_neg nonempty, firstRepeat?_eq_some_iff.2 first]
    | repeatedValue nonempty labels first =>
        rw [violation?, if_neg nonempty, (firstRepeat?_eq_none_iff _).2 labels,
          firstRepeat?_eq_some_iff.2 first]
    | block nonempty labels definitions first breaks =>
        rw [violation?, if_neg nonempty, (firstRepeat?_eq_none_iff _).2 labels,
          (firstRepeat?_eq_none_iff _).2 definitions]
        exact findSome?_violation?.2 ⟨_, first, breaks⟩

/-! ## Programs -/

section Functions

variable {front rest functions : List Function} {name : String} {violation : Violation}

/-- What is found behind functions that keep all rules breaks one first. -/
theorem breaksFirst_of_firstViolation? (names : (front.map Function.name).Nodup)
    (kept : ∀ earlier ∈ front, earlier.WellFormed)
    (found : firstViolation? (front.map Function.name).reverse rest = some (name, violation)) :
    BreaksFirst (front ++ rest) name violation := by
  induction rest generalizing front with
  | nil => cases found
  | cons function rest inductionHypothesis =>
      unfold firstViolation? at found
      by_cases repeated : function.name ∈ front.map Function.name
      · rw [if_pos (List.mem_reverse.2 repeated)] at found
        cases found
        exact .repeatedFunction rfl names kept repeated
      · rw [if_neg (fun member => repeated (List.mem_reverse.1 member))] at found
        cases own : function.violation? with
        | some broken =>
            simp only [own, Option.some.injEq, Prod.mk.injEq] at found
            obtain ⟨rfl, rfl⟩ := found
            exact .own rfl names kept repeated (Function.violation?_eq_some.1 own)
        | none =>
            have namesHere : ((front ++ [function]).map Function.name).Nodup := by
              rw [List.map_append, List.map_singleton]
              exact List.nodup_append_comm.1 (List.nodup_cons.2 ⟨repeated, names⟩)
            have keptHere : ∀ earlier ∈ front ++ [function], earlier.WellFormed :=
              List.forall_mem_append.2 ⟨kept, List.forall_mem_singleton.2
                (Function.violation?_eq_none.1 own)⟩
            rw [List.append_cons]
            refine inductionHypothesis namesHere keptHere ?_
            simpa [own] using found

/-- Functions that keep all rules are passed over, and their names are noted. -/
theorem firstViolation?_append (names : (front.map Function.name).Nodup)
    (kept : ∀ earlier ∈ front, earlier.WellFormed) (rest : List Function) :
    firstViolation? [] (front ++ rest) =
      firstViolation? (front.map Function.name).reverse rest := by
  induction front using List.reverseRecOn generalizing rest with
  | nil => rfl
  | append_singleton front function inductionHypothesis =>
      obtain ⟨keptBefore, keptHere⟩ := List.forall_mem_append.1 kept
      rw [List.map_append, List.map_singleton, List.nodup_append_comm] at names
      obtain ⟨fresh, namesBefore⟩ := List.nodup_cons.1 names
      have unbroken := Function.violation?_eq_none.2 (keptHere function List.mem_cons_self)
      have notBefore : function.name ∉ (front.map Function.name).reverse :=
        fun member => fresh (List.mem_reverse.1 member)
      rw [← List.append_cons, inductionHypothesis namesBefore keptBefore, firstViolation?,
        if_neg notBefore, unbroken, List.map_append, List.reverse_append]
      rfl

theorem firstViolation?_eq_some :
    firstViolation? [] functions = some (name, violation) ↔
      BreaksFirst functions name violation := by
  constructor
  · intro found
    have noNames : (([] : List Function).map Function.name).Nodup := List.nodup_nil
    exact breaksFirst_of_firstViolation? noNames (by simp) found
  · intro breaks
    cases breaks with
    | repeatedFunction split names kept repeated =>
        rw [split, firstViolation?_append names kept, firstViolation?,
          if_pos (List.mem_reverse.2 repeated)]
    | own split names kept fresh breaks =>
        rw [split, firstViolation?_append names kept, firstViolation?,
          if_neg (fun member => fresh (List.mem_reverse.1 member)),
          Function.violation?_eq_some.2 breaks]

end Functions

namespace StandardPass

/-- `verify` succeeds iff the functions have distinct names and each of them has blocks, distinct
labels, at most one definition of each value, a definition of every value that it uses and a block
for every label that it may go to. It fails iff some function breaks some rule first, and tells
these two. The functions stay as they are, and the mark is there iff it succeeded. -/
theorem verify_ok_iff_wellFormed (program : Program) :
    ((verify.apply program).1 = .ok false ↔
        (program.functions.map Function.name).Nodup ∧
          ∀ function ∈ program.functions, function.WellFormed) ∧
      (∀ error, (verify.apply program).1 = .error error ↔
        ∃ name violation, BreaksFirst program.functions name violation ∧
          error = .malformed name violation.message) ∧
      (verify.apply program).1 ≠ .ok true ∧
      (verify.apply program).2.functions = program.functions ∧
      ((verify.apply program).2.isMarkedVerified ↔ (verify.apply program).1 = .ok false) := by
  have kept : firstViolation? [] program.functions = none ↔
      (program.functions.map Function.name).Nodup ∧
        ∀ function ∈ program.functions, function.WellFormed := by
    simp [firstViolation?_eq_none, Function.violation?_eq_none]
  rw [← kept]
  simp only [← firstViolation?_eq_some]
  cases found : firstViolation? [] program.functions with
  | none =>
      have ran : verify.apply program =
          (.ok false, { program with results := program.results.insert .verified () }) := by
        simp only [apply, runVerify, found]
      have marked : ((program.results.insert .verified ()).get? .verified).isSome :=
        Option.isSome_of_eq_some (ResultTable.get?_insert_self _ _ _)
      rw [ran]
      simp [Program.isMarkedVerified, marked]
  | some broken =>
      obtain ⟨name, violation⟩ := broken
      have ran : verify.apply program =
          (.error (.malformed name violation.message),
            { program with results := program.results.erase .verified }) := by
        simp only [apply, runVerify, found]
      rw [ran]
      simp [Program.isMarkedVerified, eq_comm]

end StandardPass

end PassScheduler
